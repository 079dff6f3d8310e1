import RayX.Experiments.Payload
import RayX.Lib.Futures

/-!
# Leaf accounting under timeouts

The readiness compositions of a remote fan-out.  The status, the count of the leaves that timed out and
the leaves that are returned come from passes over futures that become ready meanwhile.

* `payloadRemote`     the six modes of `ext_fanout_fanin_payload_remote`;
* `diagRemote`        the three modes of `ext_fanout_fanin_remote_diag`;
* `Accounts`          status, count and leaves that agree;
* `PayloadSafe`, `DiagSafe`   what a mode needs of the tests at which the futures become ready;
* `late_leaf`         a leaf that becomes ready after the status was decided: a timeout without a leaf
                      that timed out;
* `accounting_iff`    **the accounts agree exactly where these conditions hold**.
-/

namespace RayX
namespace Timeout
open Sys

inductive WaitStatus where
  | ready | timeout | deferred | unknown
  deriving DecidableEq, Repr

/-- a C++ exception; `code` is the value and the category of a `std::system_error` -/
inductive Thrown where
  | std (type what : String) (code : Option (Int × String)) (diagnostic : String)
  | other
  deriving DecidableEq, Repr

/-- the futures of a fan-out to `n` leaves, and the future composed of them -/
structure Fanout (ρ : Type) (n : Nat) where
  leaf : Observed Thrown ρ
  /-- what `hpx::async` throws -/
  dispatch : Option Thrown
  /-- the composed future is deferred -/
  deferred : Bool
  /-- the composed future is ready at test `t` -/
  composed : Nat → Bool
  composed_mono : ∀ s t, s ≤ t → composed s = true → composed t = true
  composed_all : ∀ t, composed t = true → ∀ i < n, leaf.ready t i = true

section
variable {ρ : Type} {n : Nat}

/-- the test with which the poll loop is over; `rounds` clock readings are before the deadline -/
def pollLoop (f : Observed Thrown ρ) (n : Nat) : Nat → Nat → Nat
  | 0, t => t + n
  | rounds + 1, t => if f.allReady t n then t + n else pollLoop f n rounds (t + n)

/-- `static_cast<int>` -/
def narrow (x : Int) : Int := x.bmod (2 ^ 32)

/-- an `int` that was incremented `k` times from `0` -/
def countInt (k : Nat) : Outcome Thrown Int := if k < 2 ^ 31 then .returned k else .undefined

/-- `wait_for` of the composed future, back at test `t` -/
def waitFor (e : Fanout ρ n) (t : Nat) : WaitStatus :=
  if e.deferred then .deferred else if e.composed t then .ready else .timeout

end

/-! ## payload -/

inductive PayloadMode where
  | rootFlatGatherPoll | whenAllThenReduce | dataflowReduce | whenAllThenReduceYield
  | sequentialLeafWait | localWhenAllThenReduceWaitFor
  deriving DecidableEq, Repr

structure PayloadLeaf where
  i : Nat
  value : Int64
  locality : UInt32
  payload : List UInt8
  payloadLen : Nat
  deriving DecidableEq

structure PayloadResult where
  composite : Int64
  leaves : List PayloadLeaf
  timedOutLeafCount : Int
  n : Nat
  compositionPrimitive : PayloadMode
  successPathPollingUsed : Bool
  waitForStatus : WaitStatus
  nativeWaitVariant : String
  deriving DecidableEq

def payloadLeafOf (p : Nat × Payload.Native.PayloadLeafRecord) : PayloadLeaf :=
  ⟨p.1, p.2.value, p.2.locality, p.2.payload, p.2.payload.length⟩

def compositeOf (got : List (Nat × Payload.Native.PayloadLeafRecord)) : Int64 :=
  Reduction.Native.reduceValues (got.map fun p => p.2.value)

section
variable {n : Nat} (e : Fanout Payload.Native.PayloadLeafRecord n) (rounds : Nat)

/-- `root_flat_gather_poll`: a pass for the status, and then one for the leaves -/
def payloadPoll : Outcome Thrown PayloadResult := do
  let t := pollLoop e.leaf n rounds 0
  let readyCount ← countInt (e.leaf.found t n).length
  let status := if readyCount = narrow n then WaitStatus.ready else .timeout
  let got ← e.leaf.getAll (e.leaf.found (t + n) n)
  return ⟨compositeOf got, got.map payloadLeafOf, (e.leaf.missed (t + n) n).length, n,
    .rootFlatGatherPoll, true, status, "n/a"⟩

/-- `sequential_leaf_wait`: one pass, with a bounded wait before each test -/
def payloadSequential : Outcome Thrown PayloadResult := do
  let got ← e.leaf.getAll (e.leaf.found 0 n)
  let status := if got.length = n then WaitStatus.ready else .timeout
  return ⟨compositeOf got, got.map payloadLeafOf, (n : Int) - got.length, n, .sequentialLeafWait, false,
    status, "sequential_leaf_wait_for"⟩

/-- `while (!composed.is_ready() && now < deadline)`, from test `t` on -/
def yieldLoop : Nat → Nat → Nat
  | 0, t => t + 1
  | rounds + 1, t => if e.composed t then t + 1 else yieldLoop rounds (t + 1)

/-- the status of the wait for the composed future, and the next test -/
def waitComposed : PayloadMode → WaitStatus × Nat
  | .whenAllThenReduceYield =>
    let t := yieldLoop e rounds 0
    (if e.composed t then .ready else .timeout, t + 1)
  | _ => (waitFor e 0, 1)

def nativeWaitVariant : PayloadMode → String
  | .whenAllThenReduceYield => "yield_poll"
  | .localWhenAllThenReduceWaitFor => "local_wait_for"
  | _ => "wait_for"

/-- the modes that wait for the composed future, and then harvest -/
def payloadNative (mode : PayloadMode) : Outcome Thrown PayloadResult := do
  let (status, t) := waitComposed e rounds mode
  let yieldDiag := decide (mode = .whenAllThenReduceYield)
  if status = .ready then
    let got ← e.leaf.getAll (List.range n)
    return ⟨compositeOf got, got.map payloadLeafOf, 0, n, mode, yieldDiag, status,
      nativeWaitVariant mode⟩
  else
    let got ← e.leaf.getAll (e.leaf.found t n)
    return ⟨0, got.map payloadLeafOf, (n : Int) - got.length, n, mode, yieldDiag, status,
      nativeWaitVariant mode⟩

def payloadRemote (mode : PayloadMode) : Outcome Thrown PayloadResult :=
  match e.dispatch with
  | some x => .threw x
  | none =>
    match mode with
    | .rootFlatGatherPoll => payloadPoll e rounds
    | .sequentialLeafWait => payloadSequential e
    | _ => payloadNative e rounds mode

end

/-! ## diag -/

inductive DiagMode where
  | rootFlatGatherPoll | whenAllThenReduce | dataflowReduce
  deriving DecidableEq, Repr

structure DiagResult where
  compositionPrimitive : DiagMode
  value : Option Int64 := none
  leaves : List (Nat × Int64 × UInt32) := []
  waitForStatus : WaitStatus := .unknown
  leafFuturesReadyCountAtTimeout : Int := -1
  composedFutureReadyAtTimeout : Bool := false
  timedOutLeafCount : Int := 0
  drainedReadyLeaves : Bool := false
  unsafeTimeoutAbandonment : Bool := false
  exceptionStage : String := "none"
  exceptionType : String := ""
  exceptionMessage : String := ""
  exceptionCode : Option (Int × String) := none
  exceptionDiagnostic : String := ""
  lastStage : String := "before_dispatch"
  deriving DecidableEq

/-- the handlers of the call, for an exception that left the result as `r` -/
def DiagResult.caught (r : DiagResult) : Thrown → DiagResult
  | .std type what code diagnostic =>
    { r with
      exceptionStage := r.lastStage, exceptionType := type, exceptionMessage := what,
      exceptionCode := code, exceptionDiagnostic := diagnostic }
  | .other =>
    { r with
      exceptionStage := r.lastStage, exceptionType := "non_std_exception",
      exceptionMessage := "unknown non-std exception" }

/-- `r` with the leaves that `f` gets, or with the exception -/
def DiagResult.getting (r : DiagResult) (got : Outcome Thrown (List (Nat × Reduction.Native.LeafRecord)))
    (f : List (Nat × Reduction.Native.LeafRecord) → DiagResult) : Outcome Thrown DiagResult :=
  match got with
  | .returned vs => .returned (f vs)
  | .threw x => .returned (r.caught x)
  | .blocked => .blocked
  | .undefined => .undefined

def leafTuple (p : Nat × Reduction.Native.LeafRecord) : Nat × Int64 × UInt32 :=
  (p.1, p.2.value, p.2.locality)

section
variable {n : Nat} (e : Fanout Reduction.Native.LeafRecord n) (rounds : Nat)

/-- the leaves of a composition that is ready -/
def diagReady (r : DiagResult) : Outcome Thrown DiagResult :=
  let r := { r with waitForStatus := .ready, lastStage := "before_get" }
  r.getting (e.leaf.getAll (List.range n)) fun got =>
    { r with
      lastStage := "after_get"
      value := some (Reduction.Native.reduceValues (got.map fun p => p.2.value))
      leaves := got.map leafTuple
      timedOutLeafCount := 0 }

/-- a timeout whose count of ready leaves is `readyCount`; the pass that drains starts at test `t` -/
def diagTimeout (r : DiagResult) (readyCount : Int) (t : Nat) (drain : Bool) :
    Outcome Thrown DiagResult :=
  let r := { r with
    waitForStatus := .timeout
    leafFuturesReadyCountAtTimeout := readyCount
    timedOutLeafCount := n - readyCount }
  let abandon := decide (readyCount < narrow n)
  if drain then
    r.getting (e.leaf.getAll (e.leaf.found t n)) fun got =>
      { r with
        leaves := got.map leafTuple
        drainedReadyLeaves := true
        unsafeTimeoutAbandonment := abandon }
  else .returned { r with unsafeTimeoutAbandonment := abandon }

def diagPoll (r : DiagResult) (drain : Bool) : Outcome Thrown DiagResult := do
  let t := pollLoop e.leaf n rounds 0
  let r := { r with lastStage := "after_wait_for" }
  let readyCount ← countInt (e.leaf.found t n).length
  if readyCount = narrow n then diagReady e r else diagTimeout e r readyCount (t + n) drain

def diagNative (r : DiagResult) (drain : Bool) : Outcome Thrown DiagResult :=
  let r := { r with lastStage := "after_wait_for" }
  match waitFor e 0 with
  | .ready => diagReady e r
  | .deferred => .returned { r with waitForStatus := .deferred }
  | _ => do
    let readyCount ← countInt (e.leaf.found 1 n).length
    let r := { r with composedFutureReadyAtTimeout := e.composed (1 + n) }
    diagTimeout e r readyCount (2 + n) drain

def diagRemote (mode : DiagMode) (drain : Bool) : Outcome Thrown DiagResult :=
  let r : DiagResult := { compositionPrimitive := mode }
  match e.dispatch with
  | some x => .returned (r.caught x)
  | none =>
    let r := { r with lastStage := "after_leaf_futures" }
    match mode with
    | .rootFlatGatherPoll => diagPoll e rounds r drain
    | _ => diagNative e r drain

end

/-! ## accounts -/

/-- a result that fails closed: a status, the leaves that timed out, and the leaves that are returned -/
structure Accounts (n : Nat) (status : WaitStatus) (timedOut : Int) (leaves : Nat) : Prop where
  closed : status ≠ .ready → 0 < timedOut
  complete : status = .ready → timedOut = 0
  total : (leaves : Int) + timedOut = n

def PayloadResult.Accounts (n : Nat) (r : PayloadResult) : Prop :=
  Timeout.Accounts n r.waitForStatus r.timedOutLeafCount r.leaves.length

def DiagResult.Accounts (n : Nat) (r : DiagResult) : Prop :=
  Timeout.Accounts n r.waitForStatus r.timedOutLeafCount r.leaves.length

theorem accounts_iff {n leaves : Nat} {status : WaitStatus} {timedOut : Int} (h0 : 0 ≤ timedOut)
    (htotal : (leaves : Int) + timedOut = n) :
    Accounts n status timedOut leaves ↔ (status = .ready ↔ timedOut = 0) := by
  constructor
  · rintro ⟨hclosed, hcomplete, _⟩
    refine ⟨hcomplete, fun hz => ?_⟩
    by_contra hne
    have := hclosed hne
    omega
  · intro h
    refine ⟨fun hne => ?_, h.mp, htotal⟩
    have : timedOut ≠ 0 := fun hz => hne (h.mpr hz)
    omega

/-- a count that is used has to fit its `int` -/
theorem countInt_holds {β : Type} {P : β → Prop} (k : Nat) (f : Int → Outcome Thrown β) :
    (countInt k >>= f).Holds P ↔ k < 2 ^ 31 ∧ (f k).Holds P := by
  by_cases hk : k < 2 ^ 31
  · have hcount : countInt k = .returned (k : Int) := if_pos hk
    rw [hcount, Outcome.returned_bind, and_iff_right hk]
  · have hcount : countInt k = .undefined := if_neg hk
    rw [hcount, Outcome.undefined_bind]
    exact iff_of_false (fun h => h) fun h => hk h.1

theorem status_ready {p : Prop} [Decidable p] :
    (if p then WaitStatus.ready else .timeout) = .ready ↔ p := by
  by_cases h : p
  · rw [if_pos h]
    exact iff_of_true rfl h
  · rw [if_neg h]
    exact iff_of_false (fun h' => by cases h') h

/-! ## the tests of readiness -/

section
variable {ρ : Type} {n : Nat} (e : Fanout ρ n)

/-- the pass from test `t` on finds every leaf ready -/
def AllReady (t : Nat) : Prop := ∀ i < n, e.leaf.ready (t + i) i = true

/-- the pass from test `t` on counts the leaves as complete: all of them, or past the `int` as many as
the low 32 bits of `n` say -/
def Complete (t : Nat) : Prop :=
  if n < 2 ^ 31 then AllReady e t else ((e.leaf.found t n).length : Int) = narrow n

variable {e}

theorem complete_iff {t : Nat} : Complete e t ↔ ((e.leaf.found t n).length : Int) = narrow n := by
  unfold Complete
  by_cases hn : n < 2 ^ 31
  · have hnarrow : narrow n = n := Int.bmod_eq_of_le (by omega) (by omega)
    rw [if_pos hn, hnarrow, Int.natCast_inj]
    exact e.leaf.found_full.symm
  · rw [if_neg hn]

/-- the poll is over early only where every leaf is ready from then on: the pass after it finds what the
pass after all the rounds finds -/
theorem ready_pollLoop (rounds t m i : Nat) (hi : i < n) :
    e.leaf.ready (pollLoop e.leaf n rounds t + m + i) i =
      e.leaf.ready (t + (rounds + 1) * n + m + i) i := by
  induction rounds generalizing t with
  | zero =>
    rw [pollLoop, Nat.zero_add, Nat.one_mul]
  | succ rounds ih =>
    rw [pollLoop]
    split
    · rename_i hall
      have hready : e.leaf.ready (t + i) i = true :=
        List.all_eq_true.mp hall i (List.mem_range.mpr hi)
      rw [e.leaf.mono i _ (t + n + m + i) (by omega) hready,
        e.leaf.mono i _ (t + (rounds + 1 + 1) * n + m + i) (by omega) hready]
    · rw [ih, Nat.add_mul (rounds + 1) 1 n, Nat.one_mul, Nat.add_assoc t n, Nat.add_comm n]

theorem found_pollLoop (rounds m : Nat) :
    e.leaf.found (pollLoop e.leaf n rounds 0 + m) n = e.leaf.found ((rounds + 1) * n + m) n := by
  refine List.filter_congr fun i hi => ?_
  rw [ready_pollLoop rounds 0 m i (List.mem_range.mp hi), Nat.zero_add]

end

/-! ## the payload modes -/

section
variable {n : Nat} (e : Fanout Payload.Native.PayloadLeafRecord n) (rounds : Nat)

/-- the count fits its `int`, and between the pass that counts and the pass that harvests no leaf becomes
ready that makes the leaves complete, or a harvested leaf throws -/
def PollSafe : Prop :=
  let t := (rounds + 1) * n
  (e.leaf.found t n).length < 2 ^ 31 ∧
    (e.leaf.Throws (e.leaf.found (t + n) n) ∨ (Complete e t ↔ AllReady e (t + n)))

theorem payloadPoll_holds :
    (payloadPoll e rounds).Holds (PayloadResult.Accounts n) ↔ PollSafe e rounds := by
  unfold payloadPoll PollSafe
  have hcount : e.leaf.found (pollLoop e.leaf n rounds 0) n = e.leaf.found ((rounds + 1) * n) n :=
    found_pollLoop rounds 0
  have hall : AllReady e ((rounds + 1) * n + n) ↔
      (e.leaf.found ((rounds + 1) * n + n) n).length = n := e.leaf.found_full.symm
  dsimp only
  rw [complete_iff, hall, ← found_pollLoop rounds n, ← hcount]
  generalize pollLoop e.leaf n rounds 0 = t
  refine (countInt_holds _ _).trans (and_congr_right fun _ => ?_)
  rcases e.leaf.getAll_found (t + n) n with ⟨ht, x, hx⟩ | ⟨ht, got, hgot, hlen⟩
  · rw [hx, Outcome.threw_bind]
    exact iff_of_true trivial (Or.inl ht)
  · rw [hgot, Outcome.returned_bind, Outcome.holds_pure, PayloadResult.Accounts, or_iff_right ht]
    have hsum := e.leaf.found_add_missed (t := t + n) (n := n)
    have hgotlen : (got.map payloadLeafOf).length = (e.leaf.found (t + n) n).length := by
      rw [List.length_map, hlen]
    have hmissed : ((e.leaf.missed (t + n) n).length : Int) = 0 ↔
        (e.leaf.found (t + n) n).length = n := by omega
    dsimp only
    rw [hgotlen, accounts_iff (by omega) (by omega), status_ready, hmissed]

/-- **The sequential mode** tests each leaf once: its accounts agree. -/
theorem payloadSequential_holds : (payloadSequential e).Holds (PayloadResult.Accounts n) := by
  unfold payloadSequential
  rcases e.leaf.getAll_found 0 n with ⟨_, x, hx⟩ | ⟨_, got, hgot, hlen⟩
  · rw [hx]
    exact trivial
  · have hle := e.leaf.found_length_le (t := 0) (n := n)
    rw [hgot]
    show Accounts n (if got.length = n then WaitStatus.ready else .timeout) ((n : Int) - got.length)
      (got.map payloadLeafOf).length
    rw [List.length_map, accounts_iff (by omega) (by omega), status_ready]
    omega

/-- the wait for the composed future in the loop ends with its last test, or sees it ready before -/
theorem composed_yieldLoop (rounds t : Nat) :
    (e.composed (yieldLoop e rounds t) = true ↔ e.composed (t + rounds + 1) = true) ∧
      (e.composed (t + rounds + 1) = false → yieldLoop e rounds t = t + rounds + 1) := by
  induction rounds generalizing t with
  | zero => exact ⟨Iff.rfl, fun _ => rfl⟩
  | succ rounds ih =>
    rw [yieldLoop]
    split
    · rename_i hready
      have hlast := e.composed_mono t (t + (rounds + 1) + 1) (by omega) hready
      refine ⟨iff_of_true (e.composed_mono t (t + 1) (Nat.le_succ t) hready) hlast, ?_⟩
      intro hno
      rw [hlast] at hno
      cases hno
    · have hstep : t + 1 + rounds + 1 = t + (rounds + 1) + 1 := by omega
      rw [← hstep]
      exact ih (t + 1)

/-- the composed future is ready at the test that ends its wait -/
def InTime : PayloadMode → Prop
  | .whenAllThenReduceYield => e.composed (rounds + 1) = true
  | _ => e.deferred = false ∧ e.composed 0 = true

/-- the first test after a wait that ended without the composed future -/
def harvestAt : PayloadMode → Nat
  | .whenAllThenReduceYield => rounds + 2
  | _ => 1

/-- the composed future is ready in time, or a leaf is still not ready at its harvest, or a harvested one
throws -/
def HarvestSafe (mode : PayloadMode) : Prop :=
  InTime e rounds mode ∨ e.leaf.Throws (e.leaf.found (harvestAt rounds mode) n) ∨
    ∃ i < n, e.leaf.ready (harvestAt rounds mode + i) i = false

theorem waitFor_iff (t : Nat) : waitFor e t = .ready ↔ e.deferred = false ∧ e.composed t = true := by
  unfold waitFor
  cases e.deferred with
  | true => exact iff_of_false (fun h => by cases h) fun h => by cases h.1
  | false =>
    rw [if_neg Bool.false_ne_true, status_ready]
    exact (and_iff_right rfl).symm

/-- **The wait for the composed future** is back with its status, in time or not. -/
theorem waitComposed_iff (mode : PayloadMode) :
    ((waitComposed e rounds mode).1 = .ready ↔ InTime e rounds mode) ∧
      (¬ InTime e rounds mode → (waitComposed e rounds mode).2 = harvestAt rounds mode) := by
  cases mode with
  | whenAllThenReduceYield =>
    have hloop := composed_yieldLoop e rounds 0
    rw [Nat.zero_add] at hloop
    refine ⟨status_ready.trans hloop.1, ?_⟩
    intro hno
    exact congrArg Nat.succ (hloop.2 ((Bool.not_eq_true _).mp hno))
  | _ => exact ⟨waitFor_iff e 0, fun _ => rfl⟩

variable {e rounds} in
/-- a composition that is ready in time has all its leaves ready -/
theorem InTime.settled {mode : PayloadMode} (h : InTime e rounds mode) :
    ∀ i < n, e.leaf.value i ≠ none := by
  obtain ⟨t, ht⟩ : ∃ t, e.composed t = true := by
    cases mode with
    | whenAllThenReduceYield => exact ⟨_, h⟩
    | _ => exact ⟨0, h.2⟩
  exact fun i hi => e.leaf.settled i t (e.composed_all t ht i hi)

theorem payloadNative_holds (mode : PayloadMode) :
    (payloadNative e rounds mode).Holds (PayloadResult.Accounts n) ↔ HarvestSafe e rounds mode := by
  unfold payloadNative HarvestSafe
  obtain ⟨hstatus, hnext⟩ := waitComposed_iff e rounds mode
  generalize waitComposed e rounds mode = w at hstatus hnext ⊢
  obtain ⟨status, t⟩ := w
  dsimp only at hstatus hnext ⊢
  by_cases hr : status = .ready
  · rw [if_pos hr]
    have hin := hstatus.mp hr
    refine iff_of_true ?_ (Or.inl hin)
    have hvalues : ∀ i ∈ List.range n, e.leaf.value i ≠ none :=
      fun i hi => hin.settled i (List.mem_range.mp hi)
    rcases e.leaf.getAll_settled hvalues with ⟨_, x, hx⟩ | ⟨_, got, hgot, hlen⟩
    · rw [hx]
      exact trivial
    · rw [hgot]
      show Accounts n status 0 (got.map payloadLeafOf).length
      rw [List.length_map, hlen, List.length_range, accounts_iff (Int.le_refl 0) (Int.add_zero _)]
      exact iff_of_true hr rfl
  · rw [if_neg hr]
    have hlate : ¬ InTime e rounds mode := fun h => hr (hstatus.mpr h)
    obtain rfl := hnext hlate
    rw [or_iff_right hlate]
    rcases e.leaf.getAll_found (harvestAt rounds mode) n with ⟨ht, x, hx⟩ | ⟨ht, got, hgot, hlen⟩
    · rw [hx]
      exact iff_of_true trivial (Or.inl ht)
    · have hle := e.leaf.found_length_le (t := harvestAt rounds mode) (n := n)
      rw [hgot, or_iff_right ht]
      show Accounts n status ((n : Int) - got.length) (got.map payloadLeafOf).length ↔ _
      rw [List.length_map, accounts_iff (by omega) (by omega)]
      rw [← Observed.found_lt, ← hlen]
      constructor
      · intro h
        have hne : ¬ (n : Int) - got.length = 0 := fun hz => hr (h.mpr hz)
        omega
      · intro h
        exact iff_of_false hr (by omega)

/-- what a payload mode needs -/
def PayloadSafe (mode : PayloadMode) : Prop :=
  e.dispatch ≠ none ∨
    match mode with
    | .rootFlatGatherPoll => PollSafe e rounds
    | .sequentialLeafWait => True
    | _ => HarvestSafe e rounds mode

theorem payloadRemote_holds (mode : PayloadMode) :
    (payloadRemote e rounds mode).Holds (PayloadResult.Accounts n) ↔ PayloadSafe e rounds mode := by
  unfold payloadRemote PayloadSafe
  cases hd : e.dispatch with
  | some x => exact iff_of_true trivial (Or.inl (Option.some_ne_none x))
  | none =>
    have hnone : ∀ P : Prop, ((none : Option Thrown) ≠ none ∨ P) ↔ P :=
      fun P => ⟨fun h => h.resolve_left fun h => h rfl, Or.inr⟩
    rw [hnone]
    cases mode with
    | rootFlatGatherPoll => exact payloadPoll_holds e rounds
    | sequentialLeafWait => exact iff_of_true (payloadSequential_holds e) trivial
    | _ => exact payloadNative_holds e rounds _

end

/-! ## the diagnostic modes -/

section
variable {n : Nat} (e : Fanout Reduction.Native.LeafRecord n) (rounds : Nat)

theorem caught_accounts {r : DiagResult} {x : Thrown} :
    (r.caught x).Accounts n ↔ r.Accounts n := by
  cases x <;> exact Iff.rfl

/-- a composition that is ready has all its leaves or fails with all of them missing -/
theorem diagReady_holds (hn : 1 ≤ n) {r : DiagResult} (hr : r.leaves = [] ∧ r.timedOutLeafCount = 0) :
    (diagReady e r).Holds (DiagResult.Accounts n) ↔ ¬ e.leaf.Throws (List.range n) := by
  unfold diagReady DiagResult.getting
  rcases e.leaf.getAll_cases (List.range n) with ⟨ht, x, hx⟩ | ⟨ht, hb, _⟩ | ⟨ht, got, hgot, hlen⟩
  · rw [hx]
    refine iff_of_false (fun h => ?_) fun h => h ht
    have htotal := (caught_accounts.mp h).total
    dsimp only at htotal
    rw [hr.1, hr.2, List.length_nil] at htotal
    omega
  · rw [hb]
    exact iff_of_true trivial ht
  · rw [hgot]
    refine iff_of_true ⟨fun h => absurd rfl h, fun _ => rfl, ?_⟩ ht
    show ((got.map leafTuple).length : Int) + 0 = n
    rw [List.length_map, hlen, List.length_range, Int.add_zero]

/-- a timeout that counts the leaves in the pass from test `s` on and drains them in the one from `t` on:
no drained leaf throws, some leaf is not ready when it is counted, and none becomes ready until it is
drained; or a drained leaf throws, and none was ready when it was counted -/
def DrainSafe (s t : Nat) : Prop :=
  (¬ e.leaf.Throws (e.leaf.found t n) ∧ (∃ i < n, e.leaf.ready (s + i) i = false) ∧
    ∀ i < n, e.leaf.ready (t + i) i = true → e.leaf.ready (s + i) i = true) ∨
  (e.leaf.Throws (e.leaf.found t n) ∧ ∀ i < n, e.leaf.ready (s + i) i = false)

variable {e rounds} in
theorem drainSafe_pollLoop :
    DrainSafe e (pollLoop e.leaf n rounds 0) (pollLoop e.leaf n rounds 0 + n) ↔
      DrainSafe e ((rounds + 1) * n) ((rounds + 1) * n + n) := by
  have hready : ∀ m, ∀ i < n, e.leaf.ready (pollLoop e.leaf n rounds 0 + m + i) i =
      e.leaf.ready ((rounds + 1) * n + m + i) i := by
    intro m i hi
    rw [ready_pollLoop rounds 0 m i hi, Nat.zero_add]
  have hcount : ∀ i < n, e.leaf.ready (pollLoop e.leaf n rounds 0 + i) i =
      e.leaf.ready ((rounds + 1) * n + i) i := hready 0
  unfold DrainSafe
  rw [found_pollLoop rounds n]
  refine or_congr (and_congr_right fun _ => and_congr ?_ ?_) (and_congr_right fun _ => ?_)
  · exact exists_congr fun i => and_congr_right fun hi => by rw [hcount i hi]
  · exact forall₂_congr fun i hi => by rw [hready n i hi, hcount i hi]
  · exact forall₂_congr fun i hi => by rw [hcount i hi]

theorem diagTimeout_holds (hn : 1 ≤ n) {s t : Nat} (hst : s ≤ t) {r : DiagResult} (hr : r.leaves = []) :
    (diagTimeout e r (e.leaf.found s n).length t true).Holds (DiagResult.Accounts n) ↔
      DrainSafe e s t := by
  unfold diagTimeout DiagResult.getting DrainSafe
  rw [← Observed.found_same hst, ← Observed.found_none, ← Observed.found_lt]
  generalize (e.leaf.found s n).length = k
  have hiff : ∀ leaves : Nat, Accounts n .timeout ((n : Int) - k) leaves ↔ k < n ∧ leaves = k := by
    intro leaves
    constructor
    · rintro ⟨hclosed, _, htotal⟩
      have := hclosed fun h => by cases h
      omega
    · rintro ⟨hlt, rfl⟩
      exact ⟨fun _ => by omega, (fun h => by cases h), by omega⟩
  rcases e.leaf.getAll_found t n with ⟨ht, x, hx⟩ | ⟨ht, got, hgot, hlen⟩
  · rw [hx]
    refine caught_accounts.trans ((hiff r.leaves.length).trans ?_)
    rw [hr, List.length_nil]
    constructor
    · rintro ⟨_, hk⟩
      exact Or.inr ⟨ht, hk.symm⟩
    · rintro (⟨hno, _⟩ | ⟨_, hk⟩)
      · exact absurd ht hno
      · exact ⟨by omega, hk.symm⟩
  · rw [hgot]
    refine (hiff (got.map leafTuple).length).trans ?_
    rw [List.length_map, hlen]
    constructor
    · intro h
      exact Or.inl ⟨ht, h⟩
    · rintro (⟨_, h⟩ | ⟨hthrow, _⟩)
      · exact h
      · exact absurd hthrow ht

/-- the count fits its `int`; a poll that counts the leaves as complete gets them all, one that does not
drains them -/
def DiagPollSafe : Prop :=
  let t := (rounds + 1) * n
  (e.leaf.found t n).length < 2 ^ 31 ∧
    ((Complete e t ∧ ¬ e.leaf.Throws (List.range n)) ∨ (¬ Complete e t ∧ DrainSafe e t (t + n)))

theorem diagPoll_holds (hn : 1 ≤ n) {r : DiagResult} (hr : r.leaves = [] ∧ r.timedOutLeafCount = 0) :
    (diagPoll e rounds r true).Holds (DiagResult.Accounts n) ↔ DiagPollSafe e rounds := by
  unfold diagPoll DiagPollSafe
  have hcount : e.leaf.found (pollLoop e.leaf n rounds 0) n = e.leaf.found ((rounds + 1) * n) n :=
    found_pollLoop rounds 0
  dsimp only
  rw [complete_iff, ← drainSafe_pollLoop, ← hcount]
  generalize pollLoop e.leaf n rounds 0 = t
  refine (countInt_holds _ _).trans (and_congr_right fun _ => ?_)
  by_cases hk : ((e.leaf.found t n).length : Int) = narrow n
  · rw [if_pos hk]
    refine (diagReady_holds e hn hr).trans ?_
    exact ⟨fun h => Or.inl ⟨hk, h⟩, fun h => (h.resolve_right fun h => h.1 hk).2⟩
  · rw [if_neg hk]
    rw [diagTimeout_holds e hn (Nat.le_add_right t n) (by exact hr.1)]
    exact ⟨fun h => Or.inr ⟨hk, h⟩, fun h => (h.resolve_left fun h => hk h.1).2⟩

/-- a composition that is ready in time gets its leaves; one that is not, and is no deferred one either,
drains them -/
def DiagNativeSafe : Prop :=
  e.deferred = false ∧
    ((e.composed 0 = true ∧ ¬ e.leaf.Throws (List.range n)) ∨
      (e.composed 0 = false ∧ (e.leaf.found 1 n).length < 2 ^ 31 ∧ DrainSafe e 1 (2 + n)))

theorem diagNative_holds (hn : 1 ≤ n) {r : DiagResult}
    (hr : r.leaves = [] ∧ r.timedOutLeafCount = 0) :
    (diagNative e r true).Holds (DiagResult.Accounts n) ↔ DiagNativeSafe e := by
  unfold diagNative DiagNativeSafe waitFor
  cases e.deferred with
  | true =>
    refine iff_of_false (fun h => ?_) fun h => by cases h.1
    have hclosed : 0 < r.timedOutLeafCount := h.closed fun h => by cases h
    omega
  | false =>
    rw [if_neg Bool.false_ne_true, and_iff_right rfl]
    cases e.composed 0 with
    | true =>
      refine (diagReady_holds e hn ⟨hr.1, hr.2⟩).trans ?_
      exact ⟨fun h => Or.inl ⟨rfl, h⟩, fun h => (h.resolve_right fun h => by cases h.1).2⟩
    | false =>
      have hdrain : 1 ≤ 2 + n := by omega
      refine (countInt_holds _ _).trans ?_
      dsimp only
      rw [diagTimeout_holds e hn hdrain (by exact hr.1)]
      exact ⟨fun h => Or.inr ⟨rfl, h⟩, fun h => (h.resolve_left fun h => by cases h.1).2⟩

/-- what a diagnostic mode needs -/
def DiagSafe (mode : DiagMode) : Prop :=
  e.dispatch = none ∧
    match mode with
    | .rootFlatGatherPoll => DiagPollSafe e rounds
    | _ => DiagNativeSafe e

theorem diagRemote_holds (hn : 1 ≤ n) (mode : DiagMode) :
    (diagRemote e rounds mode true).Holds (DiagResult.Accounts n) ↔ DiagSafe e rounds mode := by
  unfold diagRemote DiagSafe
  cases hd : e.dispatch with
  | some x =>
    refine iff_of_false (fun h => ?_) fun h => by cases h.1
    have htotal : ((0 : Nat) : Int) + 0 = n := (caught_accounts.mp h).total
    omega
  | none =>
    rw [and_iff_right rfl]
    cases mode with
    | rootFlatGatherPoll => exact diagPoll_holds e rounds hn ⟨rfl, rfl⟩
    | _ => exact diagNative_holds e hn ⟨rfl, rfl⟩

end

/-! ## the law -/

/-- futures that all hold `v` and become ready at test `first` -/
def lateLeaves {ρ : Type} (first : Nat) (v : ρ) : Observed Thrown ρ where
  ready t _ := decide (first ≤ t)
  mono _ _ _ hle h := decide_eq_true (Nat.le_trans (of_decide_eq_true h) hle)
  value _ := some (.ok v)
  settled _ _ _ := Option.some_ne_none _

/-- a fan-out to one such leaf, whose composition is not ready in time -/
def lateFanout {ρ : Type} (first : Nat) (v : ρ) : Fanout ρ 1 where
  leaf := lateLeaves first v
  dispatch := none
  deferred := false
  composed _ := false
  composed_mono _ _ _ h := absurd h Bool.false_ne_true
  composed_all _ h := absurd h Bool.false_ne_true

/-- **Accounts of every mode.** -/
theorem accounting_iff {n : Nat} (hn : 1 ≤ n) (p : Fanout Payload.Native.PayloadLeafRecord n)
    (d : Fanout Reduction.Native.LeafRecord n) (rounds : Nat) :
    (∀ mode, (payloadRemote p rounds mode).Holds (PayloadResult.Accounts n) ↔
      PayloadSafe p rounds mode) ∧
    ∀ mode, (diagRemote d rounds mode true).Holds (DiagResult.Accounts n) ↔ DiagSafe d rounds mode :=
  ⟨payloadRemote_holds p rounds, diagRemote_holds d rounds hn⟩

/-- the accounts of one leaf that becomes ready at the third test -/
theorem accounting_iff_one :
    (∀ mode, (payloadRemote (lateFanout 2 ⟨5, 1, []⟩) 0 mode).Holds (PayloadResult.Accounts 1) ↔
      PayloadSafe (lateFanout 2 ⟨5, 1, []⟩) 0 mode) ∧
    ∀ mode, (diagRemote (lateFanout 2 ⟨5, 1⟩) 0 mode true).Holds (DiagResult.Accounts 1) ↔
      DiagSafe (lateFanout 2 ⟨5, 1⟩) 0 mode :=
  accounting_iff (Nat.le_refl 1) (lateFanout 2 ⟨5, 1, []⟩) (lateFanout 2 ⟨5, 1⟩) 0

/-- **A timeout without a leaf that timed out**: the leaf of a poll becomes ready after the status was
decided, that of a composition before the harvest. -/
theorem late_leaf :
    (¬ (payloadRemote (lateFanout 2 ⟨5, 1, []⟩) 0 .rootFlatGatherPoll).Holds (PayloadResult.Accounts 1)) ∧
    (¬ (payloadRemote (lateFanout 1 ⟨5, 1, []⟩) 0 .whenAllThenReduce).Holds (PayloadResult.Accounts 1)) ∧
    ¬ (diagRemote (lateFanout 1 ⟨5, 1⟩) 0 .whenAllThenReduce true).Holds (DiagResult.Accounts 1) := by
  refine ⟨fun h => ?_, fun h => ?_, fun h => ?_⟩
  · exact absurd (h.closed fun h => by cases h) (by decide)
  · exact absurd (h.closed fun h => by cases h) (by decide)
  · exact absurd (h.closed fun h => by cases h) (by decide)

end Timeout
end RayX
