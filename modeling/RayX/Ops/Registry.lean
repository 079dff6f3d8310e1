import RayX.Lib.Table
import RayX.Ops.Kernels

/-!
# The fixed operation registry

`registry` and `hpxRegistry` as the native code builds them, one body per operation.  A composed
body is modelled by the value it returns: its children are pure and its folds do not depend on
their completion order, the diagnostic witnesses of `barrier_fanin` and `overlap_probe` are left
out.

* `findOp`            the lookup of a dispatch, the core registry first;
* `opTable`           the typed signatures that the Python boundary validates against;
* `registered_polls`  **every registered body polls exactly as often as its checkpoint count
                      announces**, `park_ms` for the milliseconds that the boundary admits.
-/

namespace RayX
open Sys

/-! ## the bodies -/

section
variable {σ : Type}

def square : OpFn σ := fun a => do
  let x ← asInt64 a 0 "square"
  pure (.done (.int64 (x * x)))

def add : OpFn σ := fun a => do
  let x ← asInt64 a 0 "add"
  let y ← asInt64 a 1 "add"
  pure (.done (.int64 (x + y)))

def boom : OpFn σ := fun _ =>
  .throw (.runtimeError "boom: intentional failure for failure-path testing")

/-- the outcome of a checkpointed loop: cancelled when the loop stopped at a boundary -/
def loopOutcome {α : Type} (value : α → OpValue) : Option α → OpOutcome
  | none => .cancelled
  | some a => .done (value a)

def busySum : OpFn σ := fun a => do
  let n ← asInt64 a 0 "busy_sum"
  let acc ← runMaskedCheckpointLoop n
  pure (loopOutcome (fun acc => .int64 acc.toInt64) acc)

def scaleDouble : OpFn σ := fun a => do
  let x ← asDouble a 0 "scale_double"
  let factor ← asDouble a 1 "scale_double"
  pure (.done (.double (x * factor)))

/-- the guard shared by the native bodies: throw `msg` when an argument is out of its range -/
def guardArgs (bad : Bool) (msg : String) : Prog σ Exc Unit :=
  if bad then .throw (.invalidArgument msg) else pure ()

def badRange (lo hi x : Int64) : Bool := decide (x < lo) || decide (hi < x)

theorem guardArgs_pass {β : Type} {bad : Bool} {msg : String} {f : Unit → Prog σ Exc β}
    (h : bad = false) : guardArgs bad msg >>= f = f () := by
  rw [h]
  rfl

theorem badRange_iff (lo hi x : Int64) :
    badRange lo hi x = false ↔ lo.toInt ≤ x.toInt ∧ x.toInt ≤ hi.toInt := by
  rw [badRange, Bool.or_eq_false_iff, decide_eq_false_iff_not, decide_eq_false_iff_not,
    Int64.lt_iff_toInt_lt, Int64.lt_iff_toInt_lt, Int.not_lt, Int.not_lt]

theorem badRange_of_mem (lo hi : Int64) {x : Int64} (h : lo.toInt ≤ x.toInt)
    (h' : x.toInt ≤ hi.toInt) : badRange lo hi x = false := (badRange_iff lo hi x).2 ⟨h, h'⟩

/-- `chain_sum_loop` and `chain_sum_then` compute the same chain -/
def chainSum (op : String) : OpFn σ := fun a => do
  let seed ← asInt64 a 0 op
  let steps ← asInt64 a 1 op
  let quantum ← asInt64 a 2 op
  guardArgs (badRange 0 chainStepsMax steps || badRange 0 chainQuantumMax quantum)
    (op ++ " requires 0 <= steps <= " ++ toString chainStepsMax ++ " and 0 <= quantum <= "
      ++ toString chainQuantumMax)
  pure (.done (.int64 (chainStages quantum steps.toInt.toNat seed)))

def chainSumLoop : OpFn σ := chainSum "chain_sum_loop"
def chainSumThen : OpFn σ := chainSum "chain_sum_then"

def fanoutSum : OpFn σ := fun a => do
  let n ← asInt64 a 0 "fanout_sum"
  let parts ← asInt64 a 1 "fanout_sum"
  guardArgs (decide (n < 0) || badRange 1 fanoutPartsMax parts)
    ("fanout_sum requires n >= 0 and 1 <= parts <= " ++ toString fanoutPartsMax)
  let ranges := fanoutRanges (n / parts) (n % parts) parts.toInt.toNat 0 0
  pure (.done (.int64 (maskedFold (ranges.map fun r => maskedRangeSum r.1 r.2)).toInt64))

def parkMs : OpFn σ := fun a => do
  let ms ← asInt64 a 0 "park_ms"
  guardArgs (badRange 0 parkMsMax ms) ("park_ms requires 0 <= ms <= " ++ toString parkMsMax)
  let remaining ← parkLoop ms
  pure (loopOutcome (fun _ => .int64 ms) remaining)

/-- the masked fold of `count` child chains from `seed`, `seed + 1`, … -/
def fanin (seed : Int64) (count : Nat) (child : Int64 → Int64) : Int64 :=
  (maskedFold ((List.range count).map fun j => (child (seedAt seed j)).toUInt64)).toInt64

def chainFanout : OpFn σ := fun a => do
  let seed ← asInt64 a 0 "chain_fanout"
  let count ← asInt64 a 1 "chain_fanout"
  let steps ← asInt64 a 2 "chain_fanout"
  let quantum ← asInt64 a 3 "chain_fanout"
  guardArgs (badRange 1 chainFanoutKMax count || badRange 0 chainStepsMax steps
      || badRange 0 chainQuantumMax quantum)
    ("chain_fanout requires 1 <= count <= " ++ toString chainFanoutKMax ++ ", 0 <= steps <= "
      ++ toString chainStepsMax ++ ", and 0 <= quantum <= " ++ toString chainQuantumMax)
  pure (.done (.int64 (fanin seed count.toInt.toNat (chainStages quantum steps.toInt.toNat))))

def barrierFanin : OpFn σ := fun a => do
  let seed ← asInt64 a 0 "barrier_fanin"
  let leaves ← asInt64 a 1 "barrier_fanin"
  let quantum ← asInt64 a 2 "barrier_fanin"
  guardArgs (badRange 1 faninLeavesMax leaves || badRange 0 chainQuantumMax quantum)
    ("barrier_fanin requires 1 <= leaves <= " ++ toString faninLeavesMax
      ++ " and 0 <= quantum <= " ++ toString chainQuantumMax)
  pure (.done (.int64 (fanin seed leaves.toInt.toNat (chainStage · quantum))))

def diamondFanin : OpFn σ := fun a => do
  let seed ← asInt64 a 0 "diamond_fanin"
  let quantum ← asInt64 a 1 "diamond_fanin"
  guardArgs (badRange 0 chainQuantumMax quantum)
    ("diamond_fanin requires 0 <= quantum <= " ++ toString chainQuantumMax)
  let root := chainStage seed quantum
  let b := chainStage (root + 1) quantum
  let c := chainStage (root + 2) quantum
  let joined := (b.toUInt64 + c.toUInt64) &&& busySumMask
  pure (.done (.int64 (chainStage joined.toInt64 quantum)))

/-- one arm of `overlap_probe`: flat in mode `0`, chunk by chunk in mode `1` -/
def overlapArm (mode quantum x : Int64) : Int64 :=
  if mode = 0 then chainStage x quantum
  else
    let acc := chunkedSum quantum (busySumCheckpoints quantum).toNat 0 0
    ((x.toUInt64 + acc) &&& busySumMask).toInt64

def overlapProbe : OpFn σ := fun a => do
  let seed ← asInt64 a 0 "overlap_probe"
  let quantum ← asInt64 a 1 "overlap_probe"
  let mode ← asInt64 a 2 "overlap_probe"
  guardArgs (badRange 0 chainQuantumMax quantum || (mode != 0 && mode != 1))
    ("overlap_probe requires 0 <= quantum <= " ++ toString chainQuantumMax
      ++ " and mode in \x7b0, 1\x7d")
  let leaf0 := overlapArm mode quantum seed
  let leaf1 := overlapArm mode quantum (seedAt seed 1)
  pure (.done (.int64 ((leaf0.toUInt64 + leaf1.toUInt64) &&& busySumMask).toInt64))

/-! ## the registry -/

/-- a checkpoint count read from an `int64` argument, `1` on a wrong tag -/
def countOf (f : Int64 → Int) (i : Nat) (a : OpArgs) : Int :=
  match a[i]? with
  | some (.int64 n) => f n
  | _ => 1

def registry : List (String × OpEntry σ) :=
  [("square",
    { arity := 1, fn := square, checkpointCount := oneCheckpoint,
      argTypes := [.int64], policy := .inline }),
   ("add",
    { arity := 2, fn := add, checkpointCount := oneCheckpoint,
      argTypes := [.int64, .int64], policy := .inline }),
   ("boom",
    { arity := 0, fn := boom, checkpointCount := oneCheckpoint,
      argTypes := [], policy := .inline }),
   ("busy_sum",
    { arity := 1, fn := busySum, checkpointCount := countOf busySumCheckpoints 0,
      argTypes := [.int64] }),
   ("scale_double",
    { arity := 2, fn := scaleDouble, checkpointCount := oneCheckpoint,
      argTypes := [.double, .double], resultType := .double, policy := .inline }),
   ("chain_sum_loop",
    { arity := 3, fn := chainSumLoop, checkpointCount := oneCheckpoint,
      argTypes := [.int64, .int64, .int64] })]

def hpxRegistry : List (String × OpEntry σ) :=
  [("fanout_sum",
    { arity := 2, fn := fanoutSum, checkpointCount := countOf fanoutSumCheckpoints 1,
      argTypes := [.int64, .int64] }),
   ("park_ms",
    { arity := 1, fn := parkMs, checkpointCount := countOf parkMsCheckpoints 0,
      argTypes := [.int64] }),
   ("chain_sum_then",
    { arity := 3, fn := chainSumThen, checkpointCount := oneCheckpoint,
      argTypes := [.int64, .int64, .int64] }),
   ("chain_fanout",
    { arity := 4, fn := chainFanout, checkpointCount := oneCheckpoint,
      argTypes := [.int64, .int64, .int64, .int64] }),
   ("barrier_fanin",
    { arity := 3, fn := barrierFanin, checkpointCount := oneCheckpoint,
      argTypes := [.int64, .int64, .int64] }),
   ("diamond_fanin",
    { arity := 2, fn := diamondFanin, checkpointCount := oneCheckpoint,
      argTypes := [.int64, .int64] }),
   ("overlap_probe",
    { arity := 3, fn := overlapProbe, checkpointCount := oneCheckpoint,
      argTypes := [.int64, .int64, .int64] })]

/-- the core registry first, then the composed operations -/
def findOp (opId : String) : Option (OpEntry σ) :=
  (registry.lookup opId).or (hpxRegistry.lookup opId)

end

/-- one row of `runtime_op_table()` -/
structure OpSignature where
  argTypes : List OpType
  resultType : OpType

def opTable : List (String × OpSignature) :=
  ((registry ++ hpxRegistry : List (String × OpEntry Unit))).map fun e =>
    (e.1, { argTypes := e.2.argTypes, resultType := e.2.resultType })

/-! ## polls of the bodies -/

def notCancelled : Except Exc OpOutcome → Prop
  | .ok o => o.status ≠ .cancelled
  | .error _ => True

def isCancelled : Except Exc OpOutcome → Prop
  | .ok o => o.status = .cancelled
  | .error _ => False

def isCompleted : Except Exc OpOutcome → Prop
  | .ok o => o.status = .completed
  | .error _ => False

/-- the body polls as often as the checkpoint count `c` announces, ends with a cancelled outcome
after a poll that says stop, and with another one otherwise -/
def PollsAs (c : Int) {σ : Type} (p : Prog σ Exc OpOutcome) : Prop :=
  p.Polls notCancelled isCancelled (c - 1).toNat

section
variable {σ : Type} {p : Prog σ Exc OpOutcome}

theorem quiet_pollsAs (h : p.Quiet notCancelled) : PollsAs 1 p := h.polls

theorem quiet_asInt64 {β : Type} {D : Except Exc β → Prop} {a : OpArgs} {i : Nat} {op : String}
    {f : Int64 → Prog σ Exc β} (hf : ∀ v, (f v).Quiet D) (hD : ∀ e, D (.error e)) :
    (liftM (asInt64 a i op) >>= f).Quiet D := by
  rcases asInt64 a i op with e | v
  · exact hD e
  · exact hf v

theorem quiet_asDouble {β : Type} {D : Except Exc β → Prop} {a : OpArgs} {i : Nat} {op : String}
    {f : Float → Prog σ Exc β} (hf : ∀ v, (f v).Quiet D) (hD : ∀ e, D (.error e)) :
    (liftM (asDouble a i op) >>= f).Quiet D := by
  rcases asDouble a i op with e | v
  · exact hD e
  · exact hf v

theorem quiet_guardArgs {β : Type} {D : Except Exc β → Prop} {bad : Bool} {msg : String}
    {f : Unit → Prog σ Exc β} (hf : (f ()).Quiet D) (hD : ∀ e, D (.error e)) :
    (guardArgs bad msg >>= f).Quiet D := by
  unfold guardArgs
  split
  · exact hD _
  · exact hf

theorem notCancelled_error (e : Exc) : notCancelled (.error e) := trivial

theorem notCancelled_done (v : OpValue) : notCancelled (.ok (.done v)) := by
  intro h
  cases h

theorem notCancelled_of (r : Except Exc OpOutcome) (h : isCompleted r) : notCancelled r := by
  cases r with
  | ok o =>
    have hs : o.status = .completed := h
    show o.status ≠ .cancelled
    rw [hs]
    exact nofun
  | error e => trivial

/-- a checkpointed loop completes, its honored cancel is the cancelled outcome -/
theorem loop_settles {α : Type} {n : Nat} {loop : Prog σ Exc (Option α)} {v : α → OpValue}
    (h : loop.Polls (fun x => ∃ a, x = .ok (some a)) (fun x => x = .ok none) n) :
    (loop >>= fun r => pure (loopOutcome v r)).Polls isCompleted isCancelled n := by
  refine Prog.Polls.bind h ?_ ?_ ?_ ?_
  · rintro x ⟨a, hx⟩
    cases hx
    exact rfl
  · rintro e ⟨a, hx⟩
    cases hx
  · intro x hx
    cases hx
    rfl
  · intro e hx
    cases hx

theorem loop_pollsAs {α : Type} {c : Int} {loop : Prog σ Exc (Option α)} {v : α → OpValue}
    (h : loop.Polls (fun x => ∃ a, x = .ok (some a)) (fun x => x = .ok none) (c - 1).toNat) :
    PollsAs c (loop >>= fun r => pure (loopOutcome v r)) := (loop_settles h).mono notCancelled_of

/-- the count read from an argument is the count of the body that extracts it -/
theorem countOf_pollsAs {a : OpArgs} {i : Nat} {op : String} {f : Int64 → Int}
    {k : Int64 → Prog σ Exc OpOutcome}
    (hk : ∀ n, a[i]? = some (.int64 n) → PollsAs (f n) (k n)) :
    PollsAs (countOf f i a) (liftM (asInt64 a i op) >>= k) := by
  unfold countOf asInt64
  rcases h : a[i]? with _ | v
  · exact quiet_pollsAs (notCancelled_error _)
  · cases v with
    | int64 n => exact hk n h
    | double x => exact quiet_pollsAs (notCancelled_error _)

theorem busySum_polls (a : OpArgs) :
    PollsAs (countOf busySumCheckpoints 0 a) (busySum (σ := σ) a) :=
  countOf_pollsAs (fun n _ => loop_pollsAs (runMaskedCheckpointLoop_polls n))

theorem parkMs_polls (a : OpArgs)
    (h : ∀ ms, a[0]? = some (.int64 ms) → badRange 0 parkMsMax ms = false) :
    PollsAs (countOf parkMsCheckpoints 0 a) (parkMs (σ := σ) a) := by
  refine countOf_pollsAs (fun ms hms => ?_)
  rw [h ms hms]
  exact loop_pollsAs (parkLoop_polls ms)

theorem square_quiet (a : OpArgs) : (square (σ := σ) a).Quiet notCancelled :=
  quiet_asInt64 (fun _ => notCancelled_done _) notCancelled_error

theorem add_quiet (a : OpArgs) : (add (σ := σ) a).Quiet notCancelled :=
  quiet_asInt64 (fun _ => quiet_asInt64 (fun _ => notCancelled_done _) notCancelled_error)
    notCancelled_error

theorem boom_quiet (a : OpArgs) : (boom (σ := σ) a).Quiet notCancelled := trivial

theorem scaleDouble_quiet (a : OpArgs) : (scaleDouble (σ := σ) a).Quiet notCancelled :=
  quiet_asDouble (fun _ => quiet_asDouble (fun _ => notCancelled_done _) notCancelled_error)
    notCancelled_error

theorem chainSum_quiet (op : String) (a : OpArgs) : (chainSum (σ := σ) op a).Quiet notCancelled := by
  refine quiet_asInt64 (fun seed => ?_) notCancelled_error
  refine quiet_asInt64 (fun steps => ?_) notCancelled_error
  refine quiet_asInt64 (fun quantum => ?_) notCancelled_error
  exact quiet_guardArgs (notCancelled_done _) notCancelled_error

theorem fanoutSum_quiet (a : OpArgs) : (fanoutSum (σ := σ) a).Quiet notCancelled := by
  refine quiet_asInt64 (fun n => ?_) notCancelled_error
  refine quiet_asInt64 (fun parts => ?_) notCancelled_error
  exact quiet_guardArgs (notCancelled_done _) notCancelled_error

theorem chainFanout_quiet (a : OpArgs) : (chainFanout (σ := σ) a).Quiet notCancelled := by
  refine quiet_asInt64 (fun seed => ?_) notCancelled_error
  refine quiet_asInt64 (fun count => ?_) notCancelled_error
  refine quiet_asInt64 (fun steps => ?_) notCancelled_error
  refine quiet_asInt64 (fun quantum => ?_) notCancelled_error
  exact quiet_guardArgs (notCancelled_done _) notCancelled_error

theorem barrierFanin_quiet (a : OpArgs) : (barrierFanin (σ := σ) a).Quiet notCancelled := by
  refine quiet_asInt64 (fun seed => ?_) notCancelled_error
  refine quiet_asInt64 (fun leaves => ?_) notCancelled_error
  refine quiet_asInt64 (fun quantum => ?_) notCancelled_error
  exact quiet_guardArgs (notCancelled_done _) notCancelled_error

theorem diamondFanin_quiet (a : OpArgs) : (diamondFanin (σ := σ) a).Quiet notCancelled := by
  refine quiet_asInt64 (fun seed => ?_) notCancelled_error
  refine quiet_asInt64 (fun quantum => ?_) notCancelled_error
  exact quiet_guardArgs (notCancelled_done _) notCancelled_error

theorem overlapProbe_quiet (a : OpArgs) : (overlapProbe (σ := σ) a).Quiet notCancelled := by
  refine quiet_asInt64 (fun seed => ?_) notCancelled_error
  refine quiet_asInt64 (fun quantum => ?_) notCancelled_error
  refine quiet_asInt64 (fun mode => ?_) notCancelled_error
  exact quiet_guardArgs (notCancelled_done _) notCancelled_error

theorem countOf_fanoutSum (a : OpArgs) : countOf fanoutSumCheckpoints 1 a = 1 := by
  unfold countOf
  split
  · rfl
  · rfl

/-- a registered operation is in one of the two registries -/
theorem findOp_mem {opId : String} {e : OpEntry σ} (h : findOp opId = some e) :
    (opId, e) ∈ (registry : List (String × OpEntry σ)) ++ hpxRegistry := by
  rcases Option.or_eq_some_iff.mp h with h | ⟨_, h⟩
  · exact List.mem_append_left _ (mem_of_lookup h)
  · exact List.mem_append_right _ (mem_of_lookup h)

/-- **Every registered body polls as often as its checkpoint count announces.** -/
theorem registered_polls {opId : String} {e : OpEntry σ} (h : findOp opId = some e) (a : OpArgs)
    (hpark : opId = "park_ms" → ∀ ms, a[0]? = some (.int64 ms) → badRange 0 parkMsMax ms = false) :
    PollsAs (e.checkpointCount a) (e.fn a) := by
  have hmem := findOp_mem h
  simp only [registry, hpxRegistry, List.cons_append, List.nil_append, List.mem_cons,
    List.not_mem_nil, or_false, Prod.mk.injEq] at hmem
  rcases hmem with ⟨rfl, rfl⟩ | ⟨rfl, rfl⟩ | ⟨rfl, rfl⟩ | ⟨rfl, rfl⟩ | ⟨rfl, rfl⟩ | ⟨rfl, rfl⟩ |
    ⟨rfl, rfl⟩ | ⟨rfl, rfl⟩ | ⟨rfl, rfl⟩ | ⟨rfl, rfl⟩ | ⟨rfl, rfl⟩ | ⟨rfl, rfl⟩ | ⟨rfl, rfl⟩
  · exact quiet_pollsAs (square_quiet a)
  · exact quiet_pollsAs (add_quiet a)
  · exact quiet_pollsAs (boom_quiet a)
  · exact busySum_polls a
  · exact quiet_pollsAs (scaleDouble_quiet a)
  · exact quiet_pollsAs (chainSum_quiet _ a)
  · show PollsAs (countOf fanoutSumCheckpoints 1 a) (fanoutSum a)
    rw [countOf_fanoutSum]
    exact quiet_pollsAs (fanoutSum_quiet a)
  · exact parkMs_polls a (hpark rfl)
  · exact quiet_pollsAs (chainSum_quiet _ a)
  · exact quiet_pollsAs (chainFanout_quiet a)
  · exact quiet_pollsAs (barrierFanin_quiet a)
  · exact quiet_pollsAs (diamondFanin_quiet a)
  · exact quiet_pollsAs (overlapProbe_quiet a)

end

end RayX
