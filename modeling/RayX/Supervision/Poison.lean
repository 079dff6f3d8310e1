import RayX.Lib.Timeline

/-!
# The poison detector

`evaluate_health_predicate` takes snapshots of an island until one is decisive or the time is over, and then
one more.  A snapshot is four reads, between which processes exit and markers appear.

* `History`                the exits and markers of an island; the dead write no marker;
* `snapshot`, `window`, `evaluateHealthPredicate`   the detector, its reads numbered as they are made;
* `Alarm`                  the connector died without a disconnect, and the root is not done;
* `Sound`                  the flag is the classification, which is never a false alarm;
* `detector_sound_iff`     **the detector is sound exactly if no clean marker comes between the snapshot
                           that raises the alarm and the next one**.
-/

namespace RayX
open Sys

namespace Supervision

section
variable {T : Type} [LinearOrder T]

/-- `exit`: when, and the return code; `disconnected`: when the marker of a clean leave is written -/
structure Connector (T : Type) [LinearOrder T] where
  exit : Option (T × Int)
  disconnected : Option T
  leaves : ∀ x rc d, exit = some (x, rc) → disconnected = some d → d < x

/-- `clean`: when `clean_root.json` is written -/
structure IslandRoot (T : Type) [LinearOrder T] where
  exit : Option (T × Int)
  clean : Option T
  finishes : ∀ x, exit = some (x, 0) → ∃ c, clean = some c ∧ c < x

/-- `connector`: none where it was not launched -/
structure History (T : Type) [LinearOrder T] where
  connector : Option (Connector T)
  root : IslandRoot T
  actionStarted : Option T

def poll (exit : Option (T × Int)) (t : T) : Option Int :=
  match exit with
  | some (x, rc) => if x ≤ t then some rc else none
  | none => none

structure Snapshot where
  connRc : Option Int
  notAlive : Bool
  cleanDisc : Bool
  rootRc : Option Int
  cleanDone : Bool
  poison : Bool

/-- the reads `4 * k` to `4 * k + 3`, in the order of the source -/
def snapshot (h : History T) (r : ReadTimes T) (k : Nat) : Snapshot :=
  let connRc := match h.connector with
    | some c => poll c.exit (r.time (4 * k))
    | none => some 0
  let notAlive := h.connector.isSome && connRc.isSome
  let cleanDisc := r.sees (h.connector.bind Connector.disconnected) (4 * k + 1)
  let rootRc := poll h.root.exit (r.time (4 * k + 2))
  let cleanDone := r.sees h.root.clean (4 * k + 3)
  let poison := notAlive && !cleanDisc && rootRc != some 0 && !cleanDone
  ⟨connRc, notAlive, cleanDisc, rootRc, cleanDone, poison⟩

/-- the rounds that are left before the deadline, from the `k`-th snapshot on: `clean_completion`,
`poisoned`, and the number of the next snapshot -/
def window (h : History T) (r : ReadTimes T) : Nat → Nat → Bool × Bool × Nat
  | 0, k => (false, false, k)
  | n + 1, k =>
    let s := snapshot h r k
    if s.cleanDone then (true, false, k + 1)
    else if s.poison then (false, true, k + 1)
    else window h r n (k + 1)

inductive Classification where
  | cleanComplete
  | poisoned
  | indeterminate
  deriving DecidableEq

structure HealthSignals where
  connectorNotAlive : Bool
  connectorExitStatus : Option Int
  connectorExitSignal : Option Int
  connectorSelfCrashed : Bool
  connectorCleanDisconnectAbsent : Bool
  cleanCompletionWithinT : Bool
  cleanRootResultAbsent : Bool
  rootAliveAfterConnectorDeath : Bool
  rootNotCleanlyExited : Bool
  rootProgressTimeoutElapsed : Bool
  poisoned : Bool
  classification : Classification
  actionWasInFlight : Bool

/-- the signal of a return code below zero -/
def exitSignal : Option Int → Option Int
  | some rc => if rc < 0 then some (-rc) else none
  | none => none

/-- neither `SIGKILL` nor `SIGTERM` -/
def selfCrashed (signal : Option Int) : Bool := signal.any fun s => s ≠ 9 ∧ s ≠ 15

/-- `rounds`: the snapshots that fit before the deadline -/
def evaluateHealthPredicate (h : History T) (r : ReadTimes T) (rounds : Nat) : HealthSignals :=
  let w := window h r rounds 0
  let s := snapshot h r w.2.2
  let cleanCompletion := w.1 || s.cleanDone
  let rootNotCleanlyExited := s.rootRc != some 0
  let poisoned := w.2.1 ||
    s.notAlive && !s.cleanDisc && !cleanCompletion && rootNotCleanlyExited
  { connectorNotAlive := s.notAlive
    connectorExitStatus := s.connRc
    connectorExitSignal := exitSignal s.connRc
    connectorSelfCrashed := selfCrashed (exitSignal s.connRc)
    connectorCleanDisconnectAbsent := !s.cleanDisc
    cleanCompletionWithinT := cleanCompletion
    cleanRootResultAbsent := !cleanCompletion
    rootAliveAfterConnectorDeath := s.rootRc == none
    rootNotCleanlyExited := rootNotCleanlyExited
    rootProgressTimeoutElapsed := !cleanCompletion
    poisoned := poisoned
    classification :=
      if cleanCompletion then .cleanComplete else if poisoned then .poisoned else .indeterminate
    actionWasInFlight := r.sees h.actionStarted (4 * w.2.2 + 4) }

inductive CleanVerdict where
  | cleanCorrect
  | falsePositive
  | lateCleanResultAfterPoison
  | indeterminate
  deriving DecidableEq

/-- how a run of a healthy island is counted -/
def classifyClean (classification : Classification) (markerPresent : Bool) : CleanVerdict :=
  if classification = .cleanComplete then .cleanCorrect
  else if classification = .poisoned then .falsePositive
  else if markerPresent then .lateCleanResultAfterPoison
  else .indeterminate

/-! ## alarms -/

/-- the `k`-th snapshot comes after the exit of a connector that never disconnected, and ends before the
clean marker -/
def Alarm (h : History T) (r : ReadTimes T) (k : Nat) : Prop :=
  (∃ c x rc, h.connector = some c ∧ c.exit = some (x, rc) ∧ c.disconnected = none ∧
    x ≤ r.time (4 * k)) ∧ r.sees h.root.clean (4 * k + 3) = false

/-- the number of the last snapshot -/
def lastSnapshot (h : History T) (r : ReadTimes T) (rounds : Nat) : Nat := (window h r rounds 0).2.2

/-- the flag is the classification; a poisoned island has a dead connector that never disconnected, and its
clean marker was not seen; and one whose connector leaves cleanly is not poisoned -/
structure Sound (h : History T) (r : ReadTimes T) (rounds : Nat) : Prop where
  flag : (evaluateHealthPredicate h r rounds).poisoned = true ↔
    (evaluateHealthPredicate h r rounds).classification = .poisoned
  died : (evaluateHealthPredicate h r rounds).classification = .poisoned →
    (∃ c x rc, h.connector = some c ∧ c.exit = some (x, rc) ∧ c.disconnected = none ∧
      x ≤ r.time (4 * lastSnapshot h r rounds)) ∧
    ∀ k ≤ lastSnapshot h r rounds, (snapshot h r k).cleanDone = false
  leaves : ∀ c, h.connector = some c → c.disconnected.isSome →
    (evaluateHealthPredicate h r rounds).classification ≠ .poisoned ∧
    ∀ markerPresent, classifyClean (evaluateHealthPredicate h r rounds).classification markerPresent ≠
      .falsePositive

theorem poll_some {exit : Option (T × Int)} {t : T} {rc : Int} :
    poll exit t = some rc ↔ ∃ x, exit = some (x, rc) ∧ x ≤ t := by
  unfold poll
  cases exit with
  | none => exact ⟨fun h => (by cases h), fun ⟨_, h, _⟩ => (by cases h)⟩
  | some p =>
    obtain ⟨x, rc'⟩ := p
    dsimp only
    split
    · rename_i hle
      constructor
      · rintro ⟨⟩
        exact ⟨x, rfl, hle⟩
      · rintro ⟨_, ⟨⟩, _⟩
        rfl
    · rename_i hle
      refine ⟨fun h => (by cases h), ?_⟩
      rintro ⟨_, ⟨⟩, hle'⟩
      exact absurd hle' hle

/-- a root that was seen to exit cleanly was seen to be done -/
theorem IslandRoot.done {root : IslandRoot T} {r : ReadTimes T} {j k : Nat} (hjk : j ≤ k)
    (h : poll root.exit (r.time j) = some 0) : r.sees root.clean k = true := by
  obtain ⟨x, hx, hle⟩ := poll_some.mp h
  obtain ⟨c, hc, hlt⟩ := root.finishes x hx
  rw [hc]
  exact happened_before hlt (hle.trans (r.mono hjk))

/-- what is seen of a dead connector: its disconnect, if there is one -/
theorem Connector.seen {c : Connector T} {r : ReadTimes T} {j k : Nat} {rc : Int} (hjk : j ≤ k)
    (h : poll c.exit (r.time j) = some rc) : r.sees c.disconnected k = c.disconnected.isSome := by
  obtain ⟨x, hx, hle⟩ := poll_some.mp h
  cases hd : c.disconnected with
  | none => rfl
  | some d => exact happened_before (c.leaves x rc d hx hd) (hle.trans (r.mono hjk))

/-- what a snapshot sees of a connector that died without a disconnect -/
theorem dead_iff {h : History T} {r : ReadTimes T} {k : Nat} :
    (snapshot h r k).notAlive = true ∧ (snapshot h r k).cleanDisc = false ↔
      ∃ c x rc, h.connector = some c ∧ c.exit = some (x, rc) ∧ c.disconnected = none ∧
        x ≤ r.time (4 * k) := by
  unfold snapshot
  dsimp only
  constructor
  · rintro ⟨hdead, hdisc⟩
    rw [Bool.and_eq_true] at hdead
    obtain ⟨c, hc⟩ := Option.isSome_iff_exists.mp hdead.1
    rw [hc] at hdead hdisc
    obtain ⟨rc, hrc⟩ := Option.isSome_iff_exists.mp hdead.2
    obtain ⟨x, hx, hle⟩ := poll_some.mp hrc
    have hseen : r.sees c.disconnected (4 * k + 1) = c.disconnected.isSome :=
      Connector.seen (Nat.le_succ _) hrc
    refine ⟨c, x, rc, hc, hx, ?_, hle⟩
    rw [← Option.isNone_iff_eq_none, ← Option.not_isSome, ← hseen]
    exact congrArg _ hdisc
  · rintro ⟨c, x, rc, hc, hx, hd, hle⟩
    rw [hc]
    dsimp only [Option.bind]
    rw [poll_some.mpr ⟨x, hx, hle⟩, hd]
    exact ⟨rfl, rfl⟩

/-- **A snapshot decides for poison** exactly if there is cause for alarm; the root's exit decides nothing. -/
theorem poison_iff {h : History T} {r : ReadTimes T} {k : Nat} :
    (snapshot h r k).poison = true ↔ Alarm h r k := by
  have hpoison : (snapshot h r k).poison = ((snapshot h r k).notAlive && !(snapshot h r k).cleanDisc &&
      (snapshot h r k).rootRc != some 0 && !(snapshot h r k).cleanDone) := rfl
  have hroot : (snapshot h r k).cleanDone = false → (snapshot h r k).rootRc ≠ some 0 := by
    intro hclean hexit
    have hdone : r.sees h.root.clean (4 * k + 3) = true := IslandRoot.done (Nat.le_succ _) hexit
    exact Bool.false_ne_true (hclean.symm.trans hdone)
  rw [hpoison, Bool.and_eq_true, Bool.and_eq_true, Bool.and_eq_true, Bool.not_eq_true',
    Bool.not_eq_true', bne_iff_ne, dead_iff]
  exact ⟨fun hp => ⟨hp.1.1, hp.2⟩, fun hp => ⟨⟨hp.1, hroot hp.2⟩, hp.2⟩⟩

/-! ## the window -/

/-- how the window ends: a snapshot sees the clean marker, or raises the alarm, or the time is over -/
theorem window_cases (h : History T) (r : ReadTimes T) (n k : Nat) :
    (∃ j, k ≤ j ∧ j < k + n ∧ window h r n k = (true, false, j + 1) ∧
      (snapshot h r j).cleanDone = true ∧ ∀ i, k ≤ i → i < j → ¬ Alarm h r i) ∨
    (∃ j, k ≤ j ∧ j < k + n ∧ window h r n k = (false, true, j + 1) ∧ Alarm h r j ∧
      ∀ i, k ≤ i → i < j → ¬ Alarm h r i) ∨
    (window h r n k = (false, false, k + n) ∧ ∀ i, k ≤ i → i < k + n → ¬ Alarm h r i) := by
  induction n generalizing k with
  | zero => exact .inr (.inr ⟨rfl, fun i hi hlt => absurd hlt (Nat.not_lt.mpr hi)⟩)
  | succ n ih =>
    unfold window
    dsimp only
    by_cases hclean : (snapshot h r k).cleanDone = true
    · rw [if_pos hclean]
      exact .inl ⟨k, le_rfl, by omega, rfl, hclean, fun i hi hlt => absurd hlt (Nat.not_lt.mpr hi)⟩
    · rw [if_neg hclean]
      by_cases hpoison : (snapshot h r k).poison = true
      · rw [if_pos hpoison]
        exact .inr (.inl ⟨k, le_rfl, by omega, rfl, poison_iff.mp hpoison,
          fun i hi hlt => absurd hlt (Nat.not_lt.mpr hi)⟩)
      · rw [if_neg hpoison]
        have hk : ¬ Alarm h r k := fun ha => hpoison (poison_iff.mpr ha)
        have hext : ∀ m, (∀ i, k + 1 ≤ i → i < m → ¬ Alarm h r i) → ∀ i, k ≤ i → i < m → ¬ Alarm h r i := by
          intro m hm i hi hlt
          rcases Nat.eq_or_lt_of_le hi with rfl | hi
          · exact hk
          · exact hm i hi hlt
        rcases ih (k + 1) with ⟨j, hj, hlt, hw, hc, hfirst⟩ | ⟨j, hj, hlt, hw, ha, hfirst⟩ | ⟨hw, hnone⟩
        · exact .inl ⟨j, by omega, by omega, hw, hc, hext j hfirst⟩
        · exact .inr (.inl ⟨j, by omega, by omega, hw, ha, hext j hfirst⟩)
        · rw [Nat.add_right_comm] at hw hnone
          exact .inr (.inr ⟨hw, hext _ hnone⟩)

/-! ## the verdict -/

theorem clean_mono {h : History T} {r : ReadTimes T} {j k : Nat} (hjk : j ≤ k)
    (hj : (snapshot h r j).cleanDone = true) : (snapshot h r k).cleanDone = true :=
  r.sees_mono (show 4 * j + 3 ≤ 4 * k + 3 by omega) hj

theorem classification_iff {h : History T} {r : ReadTimes T} {rounds : Nat} :
    (evaluateHealthPredicate h r rounds).classification = .poisoned ↔
      (evaluateHealthPredicate h r rounds).cleanCompletionWithinT = false ∧
        (evaluateHealthPredicate h r rounds).poisoned = true := by
  have hc : (evaluateHealthPredicate h r rounds).classification =
      if (evaluateHealthPredicate h r rounds).cleanCompletionWithinT then .cleanComplete
      else if (evaluateHealthPredicate h r rounds).poisoned then .poisoned else .indeterminate := rfl
  rw [hc]
  cases (evaluateHealthPredicate h r rounds).cleanCompletionWithinT <;>
    cases (evaluateHealthPredicate h r rounds).poisoned <;> simp

/-- the flag is set by the window, or by the last snapshot of an island that is not complete -/
theorem poisoned_iff {h : History T} {r : ReadTimes T} {rounds : Nat} :
    (evaluateHealthPredicate h r rounds).poisoned = true ↔
      (window h r rounds 0).2.1 = true ∨
        (evaluateHealthPredicate h r rounds).cleanCompletionWithinT = false ∧
        (snapshot h r (lastSnapshot h r rounds)).notAlive = true ∧
        (snapshot h r (lastSnapshot h r rounds)).cleanDisc = false ∧
        (snapshot h r (lastSnapshot h r rounds)).rootRc ≠ some 0 := by
  have hp : (evaluateHealthPredicate h r rounds).poisoned = ((window h r rounds 0).2.1 ||
      (snapshot h r (lastSnapshot h r rounds)).notAlive &&
        !(snapshot h r (lastSnapshot h r rounds)).cleanDisc &&
        !(evaluateHealthPredicate h r rounds).cleanCompletionWithinT &&
        (snapshot h r (lastSnapshot h r rounds)).rootRc != some 0) := rfl
  rw [hp, Bool.or_eq_true, Bool.and_eq_true, Bool.and_eq_true, Bool.and_eq_true, Bool.not_eq_true',
    Bool.not_eq_true', bne_iff_ne]
  exact or_congr_right ⟨fun h => ⟨h.1.2, h.1.1.1, h.1.1.2, h.2⟩,
    fun h => ⟨⟨⟨h.2.1, h.2.2.1⟩, h.1⟩, h.2.2.2⟩⟩

theorem clean_of_window {h : History T} {r : ReadTimes T} {rounds : Nat} :
    (evaluateHealthPredicate h r rounds).cleanCompletionWithinT =
      ((window h r rounds 0).1 || (snapshot h r (lastSnapshot h r rounds)).cleanDone) := rfl

/-- a flag on an island that is complete is that of a first alarm, before the clean marker -/
theorem flagged_clean_iff {h : History T} {r : ReadTimes T} {rounds : Nat} :
    (evaluateHealthPredicate h r rounds).poisoned = true ∧
        (evaluateHealthPredicate h r rounds).cleanCompletionWithinT = true ↔
      ∃ k < rounds, Alarm h r k ∧ (∀ j < k, ¬ Alarm h r j) ∧
        r.sees h.root.clean (4 * (k + 1) + 3) = true := by
  constructor
  · rintro ⟨hflag, hclean⟩
    have hwindow : (window h r rounds 0).2.1 = true := by
      rcases poisoned_iff.mp hflag with hw | ⟨hno, _⟩
      · exact hw
      · rw [hclean] at hno
        cases hno
    rw [clean_of_window, lastSnapshot] at hclean
    rcases window_cases h r rounds 0 with ⟨j, _, _, hw, _⟩ | ⟨j, _, hlt, hw, ha, hfirst⟩ | ⟨hw, _⟩
    · rw [hw] at hwindow
      cases hwindow
    · rw [hw] at hclean
      exact ⟨j, by omega, ha, fun i hi => hfirst i (Nat.zero_le i) hi, hclean⟩
    · rw [hw] at hwindow
      cases hwindow
  · rintro ⟨k, hk, ha, hfirst, hclean⟩
    have hw : window h r rounds 0 = (false, true, k + 1) := by
      rcases window_cases h r rounds 0 with ⟨j, _, _, _, hc, hnone⟩ | ⟨j, _, _, hw, ha', hnone⟩ | ⟨_, hnone⟩
      · rcases Nat.lt_or_ge k j with hlt | hge
        · exact absurd ha (hnone k (Nat.zero_le k) hlt)
        · exact absurd ((clean_mono hge hc).symm.trans ha.2) (by decide)
      · rcases Nat.lt_trichotomy j k with hlt | rfl | hlt
        · exact absurd ha' (hfirst j hlt)
        · exact hw
        · exact absurd ha (hnone k (Nat.zero_le k) hlt)
      · exact absurd ha (hnone k (Nat.zero_le k) (by omega))
    refine ⟨poisoned_iff.mpr (.inl (by rw [hw])), ?_⟩
    rw [clean_of_window, lastSnapshot, hw]
    exact hclean

theorem died_of_poisoned {h : History T} {r : ReadTimes T} {rounds : Nat}
    (hp : (evaluateHealthPredicate h r rounds).classification = .poisoned) :
    (∃ c x rc, h.connector = some c ∧ c.exit = some (x, rc) ∧ c.disconnected = none ∧
      x ≤ r.time (4 * lastSnapshot h r rounds)) ∧
    ∀ k ≤ lastSnapshot h r rounds, (snapshot h r k).cleanDone = false := by
  obtain ⟨hclean, hflag⟩ := classification_iff.mp hp
  refine ⟨?_, fun k hk => ?_⟩
  · rcases poisoned_iff.mp hflag with hwindow | ⟨_, hdead, hdisc, _⟩
    · unfold lastSnapshot
      rcases window_cases h r rounds 0 with ⟨j, _, _, hw, _⟩ | ⟨j, _, _, hw, ha, _⟩ | ⟨hw, _⟩
      · rw [hw] at hwindow
        cases hwindow
      · obtain ⟨⟨c, x, rc, hc, hx, hd, hle⟩, _⟩ := ha
        rw [hw]
        exact ⟨c, x, rc, hc, hx, hd, hle.trans (r.mono (Nat.mul_le_mul_left 4 (Nat.le_succ j)))⟩
      · rw [hw] at hwindow
        cases hwindow
    · exact dead_iff.mp ⟨hdead, hdisc⟩
  · rw [clean_of_window, Bool.or_eq_false_iff] at hclean
    exact Bool.eq_false_iff.mpr fun hk' => Bool.false_ne_true (hclean.2.symm.trans (clean_mono hk hk'))

/-- **The poison detector.**  It is sound exactly if the clean marker does not appear between the first
snapshot of the window that raises the alarm and the last read of the next one. -/
theorem detector_sound_iff (h : History T) (r : ReadTimes T) (rounds : Nat) : Sound h r rounds ↔
    ¬ ∃ k < rounds, Alarm h r k ∧ (∀ j < k, ¬ Alarm h r j) ∧
      r.sees h.root.clean (4 * (k + 1) + 3) = true := by
  rw [← flagged_clean_iff]
  constructor
  · rintro hs ⟨hflag, hclean⟩
    have hno := (classification_iff.mp (hs.flag.mp hflag)).1
    rw [hclean] at hno
    cases hno
  · intro hno
    refine ⟨⟨fun hflag => ?_, fun hp => (classification_iff.mp hp).2⟩, died_of_poisoned,
      fun c hc hdisc => ?_⟩
    · refine classification_iff.mpr ⟨?_, hflag⟩
      exact Bool.eq_false_iff.mpr fun hclean => hno ⟨hflag, hclean⟩
    · have hnot : (evaluateHealthPredicate h r rounds).classification ≠ .poisoned := by
        intro hp
        obtain ⟨⟨c', x, rc, hc', _, hnone, _⟩, _⟩ := died_of_poisoned hp
        cases hc.symm.trans hc'
        rw [hnone] at hdisc
        cases hdisc
      refine ⟨hnot, fun markerPresent => ?_⟩
      unfold classifyClean
      rw [if_neg hnot]
      split
      · exact fun h => (by cases h)
      · split <;> exact fun h => (by cases h)

end

/-- the connector crashes, and the root is done after the alarm -/
def lateRoot : History Nat where
  connector := some ⟨some (0, -4), none, fun _ _ d _ h => (Option.some_ne_none d h.symm).elim⟩
  root := ⟨none, some 5, fun x h => (Option.some_ne_none (x, 0) h.symm).elim⟩
  actionStarted := none

/-- the flag is set on an island that is complete -/
theorem flagged_complete :
    (evaluateHealthPredicate lateRoot ⟨id, monotone_id⟩ 1).poisoned = true ∧
      (evaluateHealthPredicate lateRoot ⟨id, monotone_id⟩ 1).classification = .cleanComplete ∧
      ¬ Sound lateRoot ⟨id, monotone_id⟩ 1 := by
  refine ⟨rfl, rfl, fun hs => ?_⟩
  have hclass := hs.flag.mp rfl
  cases hclass

end Supervision
end RayX
