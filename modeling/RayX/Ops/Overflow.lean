import RayX.Lib.Run
import RayX.Actor.Registry
import RayX.Ops.Boundary
import RayX.Ops.Fanout

/-!
# Signed overflow behind the boundary

The checked bodies as the native side dispatches them, and the calls that reach them through the
Python boundary.

* `Witnesses`                the two process-wide witness slots, whose sequence number a body advances;
* `Checked.registry`, `Checked.counterMethods`   the checked bodies and checkpoint counts;
* `Native`, `PublicCall`, `accept`, `perform`    the state behind the boundary, a call, what the
                             boundary makes of it, what a completed one does;
* `Defined`, `Fits`          the call evaluates no undefined expression; the bounds on its arguments
                             and on the state before it;
* `native_defined_iff`       **in every history of calls the two agree**: only `square`, `add`, the
                             `add` of a counter and the sequence numbers can overflow.
-/

namespace RayX
open Sys

/-! ## the witness slots -/

/-- the sequence numbers in the witness slots of `barrier_fanin` and `overlap_probe` -/
structure Witnesses where
  barrierSeq : Int64
  overlapSeq : Int64

/-- a checked body and the count that arms its running cancel -/
structure CheckedEntry (σ : Type) where
  fn : CheckedFn σ
  checkpointCount : OpArgs → Option Int

namespace Checked

/-- `w.seq = slot.seq + 1`, for the slot whose number is `seq` -/
def recordWitness (seq : Witnesses → Int64) (stamp : Witnesses → Int64 → Witnesses) :
    Prog Witnesses Fault Unit := do
  let slot ← Prog.get
  let next ← defined (addS (seq slot) 1)
  Prog.set (stamp slot next)

def recordBarrierFaninWitness : Prog Witnesses Fault Unit :=
  recordWitness Witnesses.barrierSeq (fun w seq => { w with barrierSeq := seq })

def recordOverlapWitness : Prog Witnesses Fault Unit :=
  recordWitness Witnesses.overlapSeq (fun w seq => { w with overlapSeq := seq })

/-- the events of the two arms: enter, leave, and one for each chunk after the first -/
def overlapEvents (a : OpArgs) : Nat :=
  match a with
  | [_, .int64 quantum, .int64 mode] =>
    2 * (2 + if mode = 0 then 0 else (busySumCheckpoints quantum).toNat - 1)
  | _ => 0

def barrierFaninRecorded : CheckedFn Witnesses := fun a => do
  let o ← barrierFanin a
  recordBarrierFaninWitness
  pure o

/-- the arms stamp their events from one counter -/
def overlapProbeRecorded : CheckedFn Witnesses := fun a => do
  let o ← overlapProbe a
  let _ ← defined (countS (overlapEvents a) 0)
  recordOverlapWitness
  pure o

def oneCheckpoint (_ : OpArgs) : Option Int := some 1

def countOf (f : Int64 → Option Int) (i : Nat) (a : OpArgs) : Option Int :=
  match a[i]? with
  | some (.int64 n) => f n
  | _ => some 1

def busySumCheckpoints (n : Int64) : Option Int := checkpointsS busySumStride n
def parkMsCheckpoints (ms : Int64) : Option Int := checkpointsS parkMsStride ms
def fanoutSumCheckpoints (_parts : Int64) : Option Int := some 1

def registry : List (String × CheckedEntry Witnesses) :=
  [("square", { fn := square, checkpointCount := oneCheckpoint }),
   ("add", { fn := add, checkpointCount := oneCheckpoint }),
   ("boom", { fn := boom, checkpointCount := oneCheckpoint }),
   ("busy_sum", { fn := busySum, checkpointCount := countOf busySumCheckpoints 0 }),
   ("scale_double", { fn := scaleDouble, checkpointCount := oneCheckpoint }),
   ("chain_sum_loop", { fn := chainSumLoop, checkpointCount := oneCheckpoint }),
   ("fanout_sum", { fn := fanoutSum, checkpointCount := countOf fanoutSumCheckpoints 1 }),
   ("park_ms", { fn := parkMs, checkpointCount := countOf parkMsCheckpoints 0 }),
   ("chain_sum_then", { fn := chainSumThen, checkpointCount := oneCheckpoint }),
   ("chain_fanout", { fn := chainFanout, checkpointCount := oneCheckpoint }),
   ("barrier_fanin", { fn := barrierFaninRecorded, checkpointCount := oneCheckpoint }),
   ("diamond_fanin", { fn := diamondFanin, checkpointCount := oneCheckpoint }),
   ("overlap_probe", { fn := overlapProbeRecorded, checkpointCount := oneCheckpoint })]

/-! ## the methods -/

def counterAdd : CheckedFn ActorState := fun a => do
  let c ← (asCounter "add").mapErr Fault.exc
  let delta ← int64Arg a 0 "add"
  let v ← defined (addS c.v delta)
  Prog.set (.counter { c with v := v })
  pure (.done (.int64 v))

/-- no arithmetic -/
def counterGet : CheckedFn ActorState := fun a => (RayX.counterGet a).mapErr Fault.exc

def counterReset : CheckedFn ActorState := fun a => (RayX.counterReset a).mapErr Fault.exc

def counterBusyGet : CheckedFn ActorState := fun a => do
  let _ ← (asCounter "busy_get").mapErr Fault.exc
  let n ← int64Arg a 0 "busy_get"
  let acc ← runMaskedCheckpointLoopS n
  match acc with
  | none => pure .cancelled
  | some _ => do
    let c ← (asCounter "busy_get").mapErr Fault.exc
    pure (.done (.int64 c.v))

def counterMethods : List (String × CheckedEntry ActorState) :=
  [("add", { fn := counterAdd, checkpointCount := oneCheckpoint }),
   ("get", { fn := counterGet, checkpointCount := oneCheckpoint }),
   ("reset", { fn := counterReset, checkpointCount := oneCheckpoint }),
   ("busy_get", { fn := counterBusyGet, checkpointCount := countOf busySumCheckpoints 0 })]

end Checked

/-! ## calls -/

/-- the state that native bodies read and write -/
structure Native where
  witnesses : Witnesses
  actors : List ActorState

def Native.start : Native := ⟨⟨0, 0⟩, []⟩

inductive PublicCall where
  | submitOperation (opId : PyObj) (args : List PyObj)
  | createActor (actorType : PyObj) (args : List PyObj)
  | callMethod (actor : Nat) (methodId : PyObj) (args : List PyObj)

/-- a call behind the boundary -/
inductive NativeCall where
  | operation (opId : String) (a : OpArgs)
  | creation (st : ActorState)
  | method (actor : Nat) (methodId : String) (a : OpArgs)

/-- the validators and the marshalling; `none` is a call that raises -/
def accept (n : Native) : PublicCall → Option NativeCall
  | .submitOperation opId args =>
    match opId, validateCall opId args opTable with
    | .str op, .ok out =>
      (marshalArgs ("operation '" ++ op ++ "'") out).toOption.map (.operation op)
    | _, _ => none
  | .createActor actorType args =>
    match actorType, validateActorCreate actorType args with
    | .str t, .ok out => do
      let entry ← actorRegistry.lookup t
      let a ← (marshalArgs ("actor '" ++ t ++ "' init") out).toOption
      let st ← (entry.factory a).toOption
      some (.creation st)
    | _, _ => none
  | .callMethod i methodId args =>
    (n.actors[i]?).bind fun st =>
      match methodId, validateActorCall (.str st.typeId) methodId args with
      | .str m, .ok out => (marshalArgs ("method '" ++ m ++ "'") out).toOption.map (.method i m)
      | _, _ => none

section
variable {σ : Type}

/-- the state after a body that nothing stops; `none` after an undefined expression -/
def ended (p : Prog σ Fault OpOutcome) (s : σ) : Option σ :=
  match p.eval 0 s with
  | (.error .undefined, _) => none
  | (_, s') => some s'

/-- neither the count nor the body evaluates an undefined expression, whatever the polls answer -/
def CheckedEntry.Defined (e : CheckedEntry σ) (a : OpArgs) (s : σ) : Prop :=
  e.checkpointCount a ≠ none ∧ (e.fn a).wp (fun r _ => noFault r) s

end

/-- a completed call -/
def perform (n : Native) : NativeCall → Option Native
  | .operation op a => do
    let e ← Checked.registry.lookup op
    let w ← ended (e.fn a) n.witnesses
    some { n with witnesses := w }
  | .creation st => some { n with actors := n.actors ++ [st] }
  | .method i m a => do
    let st ← n.actors[i]?
    let e ← Checked.counterMethods.lookup m
    let st' ← ended (e.fn a) st
    some { n with actors := n.actors.set i st' }

/-- a rejected call changes nothing -/
def Native.step (n : Native) (r : PublicCall) : Option Native :=
  match accept n r with
  | none => some n
  | some c => perform n c

/-! ## the two conditions -/

def NativeCall.Defined (n : Native) : NativeCall → Prop
  | .operation op a => ∀ e, Checked.registry.lookup op = some e → e.Defined a n.witnesses
  | .creation _ => True
  | .method i m a => ∀ st e, n.actors[i]? = some st → Checked.counterMethods.lookup m = some e →
      e.Defined a st

/-- the bounds on the arguments and on the state before the call; every other call is free -/
def NativeCall.Fits (n : Native) : NativeCall → Prop
  | .operation "square" [.int64 x] => x.toInt.natAbs ≤ 3037000499
  | .operation "add" [.int64 x, .int64 y] => InRange (x.toInt + y.toInt)
  | .operation "barrier_fanin" _ => n.witnesses.barrierSeq.toInt < 2 ^ 63 - 1
  | .operation "overlap_probe" _ => n.witnesses.overlapSeq.toInt < 2 ^ 63 - 1
  | .method i "add" [.int64 delta] =>
    ∀ c, n.actors[i]? = some (.counter c) → InRange (c.v.toInt + delta.toInt)
  | _ => True

/-- an accepted call evaluates no signed expression that overflows -/
def CallDefined (n : Native) (r : PublicCall) : Prop := ∀ c, accept n r = some c → c.Defined n

def CallFits (n : Native) (r : PublicCall) : Prop := ∀ c, accept n r = some c → c.Fits n

/-! ## bodies -/

section
variable {σ : Type}

/-- an expression in the middle of a body that has no other one -/
theorem wp_defined {γ : Type} {x : Option γ} {f : γ → Prog σ Fault OpOutcome} {s : σ}
    (hf : ∀ v, (f v).wp (fun r _ => noFault r) s) :
    (defined x >>= f).wp (fun r _ => noFault r) s ↔ ∃ v, x = some v := by
  cases x with
  | none =>
    refine ⟨False.elim, ?_⟩
    rintro ⟨v, hv⟩
    cases hv
  | some v => exact ⟨fun _ => ⟨v, rfl⟩, fun _ => hf v⟩

/-- a count that has a value leaves the body -/
theorem CheckedEntry.defined_counted {e : CheckedEntry σ} {a : OpArgs} {s : σ} {k : Int}
    (hc : e.checkpointCount a = some k) :
    e.Defined a s ↔ (e.fn a).wp (fun r _ => noFault r) s := by
  rw [CheckedEntry.Defined, hc]
  exact and_iff_right (Option.some_ne_none k)

/-- a body that only throws -/
theorem CheckedEntry.defined_of {e : CheckedEntry σ} {a : OpArgs} {s : σ} {p : Prog σ Exc OpOutcome}
    (hc : e.checkpointCount a ≠ none) (hp : e.fn a = p.mapErr Fault.exc) : e.Defined a s := by
  refine ⟨hc, ?_⟩
  rw [hp]
  exact noFault_mapErr p s

end

theorem exact_iff {x : Int} : (∃ v, exact x = some v) ↔ InRange x := by
  rw [exact]
  by_cases h : InRange x
  · rw [if_pos h]
    exact ⟨fun _ => h, fun _ => ⟨_, rfl⟩⟩
  · rw [if_neg h]
    constructor
    · rintro ⟨v, hv⟩
      cases hv
    · exact fun hx => absurd hx h

/-- the square of the largest root below `2^63` -/
theorem square_inRange (x : Int) : InRange (x * x) ↔ x.natAbs ≤ 3037000499 := by
  have habs : x * x = ((x.natAbs * x.natAbs : Nat) : Int) := (Int.natAbs_mul_self).symm
  rw [InRange, habs]
  constructor
  · intro h
    apply Nat.le_of_not_lt
    intro hlt
    have hsq : 3037000500 * 3037000500 ≤ x.natAbs * x.natAbs := Nat.mul_le_mul hlt hlt
    omega
  · intro h
    have hsq : x.natAbs * x.natAbs ≤ 3037000499 * 3037000499 := Nat.mul_le_mul h h
    omega

namespace Checked

theorem square_defined {x : Int64} {w : Witnesses} :
    (square [.int64 x]).wp (fun r _ => noFault r) w ↔ x.toInt.natAbs ≤ 3037000499 := by
  rw [← square_inRange, ← exact_iff]
  exact wp_defined (fun _ => trivial)

theorem add_defined {x y : Int64} {w : Witnesses} :
    (add [.int64 x, .int64 y]).wp (fun r _ => noFault r) w ↔ InRange (x.toInt + y.toInt) := by
  rw [← exact_iff]
  exact wp_defined (fun _ => trivial)

theorem busySum_count (n : Int64) : countOf busySumCheckpoints 0 [.int64 n] ≠ none := by
  show checkpointsS busySumStride n ≠ none
  rw [checkpointsS_eq (by decide)]
  exact nofun

theorem parkMs_count (ms : Int64) : countOf parkMsCheckpoints 0 [.int64 ms] ≠ none := by
  show checkpointsS parkMsStride ms ≠ none
  rw [checkpointsS_eq (by decide)]
  exact nofun

theorem counterBusyGet_eq (a : OpArgs) :
    counterBusyGet a = (RayX.counterBusyGet a).mapErr Fault.exc := by
  refine Prog.bind_mapErr (fun _ => int64Arg_bind (fun n => ?_))
  rw [runMaskedCheckpointLoopS_eq]
  refine Prog.bind_mapErr (fun acc => ?_)
  cases acc with
  | none => rfl
  | some acc => exact Prog.bind_mapErr (fun _ => rfl)

theorem counterAdd_defined {c : CounterState} {delta : Int64} :
    (counterAdd [.int64 delta]).wp (fun r _ => noFault r) (.counter c)
      ↔ InRange (c.v.toInt + delta.toInt) := by
  rw [← exact_iff]
  exact wp_defined (fun _ => trivial)

/-- a sequence number has a successor below the largest `int64` -/
theorem succ_defined {x : Int64} : (∃ v, addS x 1 = some v) ↔ x.toInt < 2 ^ 63 - 1 := by
  have h1 : (1 : Int64).toInt = 1 := rfl
  have hlo := Int64.le_toInt x
  rw [addS, exact_iff, InRange, h1]
  omega

/-- the record of an execution, the last effect of its body -/
theorem recordWitness_defined {seq : Witnesses → Int64} {stamp : Witnesses → Int64 → Witnesses}
    {o : OpOutcome} {w : Witnesses} :
    (recordWitness seq stamp >>= fun _ => pure o).wp (fun r _ => noFault r) w
      ↔ (seq w).toInt < 2 ^ 63 - 1 := by
  rw [← succ_defined]
  show ((defined (addS (seq w) 1) >>= fun next => Prog.set (stamp w next)) >>= fun _ =>
    (pure o : Prog Witnesses Fault OpOutcome)).wp (fun r _ => noFault r) w ↔ _
  cases addS (seq w) 1 with
  | none =>
    refine ⟨False.elim, ?_⟩
    rintro ⟨v, hv⟩
    cases hv
  | some next => exact ⟨fun _ => ⟨next, rfl⟩, fun _ => trivial⟩

section
variable {seed leaves quantum mode : Int64} {w : Witnesses}

theorem barrierFaninRecorded_defined
    (hd : opDomain "barrier_fanin" [.int seed.toInt, .int leaves.toInt, .int quantum.toInt] = .ok ()) :
    (barrierFaninRecorded [.int64 seed, .int64 leaves, .int64 quantum]).wp (fun r _ => noFault r) w
      ↔ w.barrierSeq.toInt < 2 ^ 63 - 1 := by
  have hval : (RayX.barrierFanin [.int64 seed, .int64 leaves, .int64 quantum]
      : Prog Witnesses Exc OpOutcome)
      = pure (.done (.int64 (fanin seed leaves.toInt.toNat (chainStage · quantum)))) :=
    guardArgs_pass (barrierFanin_domain.1 hd)
  rw [barrierFaninRecorded, barrierFanin_eq, hval]
  exact recordWitness_defined

theorem overlapProbeRecorded_defined
    (hd : opDomain "overlap_probe" [.int seed.toInt, .int quantum.toInt, .int mode.toInt] = .ok ()) :
    (overlapProbeRecorded [.int64 seed, .int64 quantum, .int64 mode]).wp (fun r _ => noFault r) w
      ↔ w.overlapSeq.toInt < 2 ^ 63 - 1 := by
  obtain ⟨v, hval⟩ : ∃ v, (RayX.overlapProbe [.int64 seed, .int64 quantum, .int64 mode]
      : Prog Witnesses Exc OpOutcome) = pure (.done v) :=
    ⟨_, guardArgs_pass (overlapProbe_domain.1 hd)⟩
  -- a chunk for each checkpoint bounds the events
  have hle := checkpoints_le busySumStride quantum
  have hev : overlapEvents [.int64 seed, .int64 quantum, .int64 mode] < 2 ^ 63 := by
    rw [overlapEvents, RayX.busySumCheckpoints]
    split <;> omega
  obtain ⟨j, hj⟩ := countS_eq (overlapEvents [.int64 seed, .int64 quantum, .int64 mode]) (j := 0) (by
    have h0 : (0 : Int64).toInt = 0 := rfl
    omega)
  rw [overlapProbeRecorded, overlapProbe_eq, hval, hj]
  exact recordWitness_defined

end

end Checked

/-! ## operations -/

/-- a registered operation behind the boundary -/
theorem operation_iff {n : Native} {op : String} {a : OpArgs} {e : CheckedEntry Witnesses}
    (h : Checked.registry.lookup op = some e) :
    (NativeCall.operation op a).Defined n ↔ e.Defined a n.witnesses := by
  refine ⟨fun hd => hd e h, fun he e' h' => ?_⟩
  obtain rfl := Option.some.inj (h.symm.trans h')
  exact he

/-- an operation whose arithmetic always fits -/
theorem operation_free {n : Native} {op : String} {a : OpArgs} {e : CheckedEntry Witnesses}
    {p : Prog Witnesses Exc OpOutcome} (h : Checked.registry.lookup op = some e)
    (hfits : (NativeCall.operation op a).Fits n) (hc : e.checkpointCount a ≠ none)
    (hp : e.fn a = p.mapErr Fault.exc) :
    (NativeCall.operation op a).Defined n ↔ (NativeCall.operation op a).Fits n :=
  ⟨fun _ => hfits, fun _ => (operation_iff h).2 (CheckedEntry.defined_of hc hp)⟩

theorem operation_defined_iff {n : Native} {op : String} {sig : OpSignature} {a : OpArgs}
    (h : opTable.lookup op = some sig) (ht : ArgsTyped sig.argTypes (a.map pyOf))
    (hd : opDomain op (a.map pyOf) = .ok ()) :
    (NativeCall.operation op a).Defined n ↔ (NativeCall.operation op a).Fits n := by
  have hmem : (op, sig) ∈ opTable := mem_of_lookup h
  simp only [opTable, registry, hpxRegistry, List.cons_append, List.nil_append, List.map_cons,
    List.map_nil, List.mem_cons, List.not_mem_nil, or_false, Prod.mk.injEq] at hmem
  rcases hmem with ⟨rfl, rfl⟩ | ⟨rfl, rfl⟩ | ⟨rfl, rfl⟩ | ⟨rfl, rfl⟩ | ⟨rfl, rfl⟩ | ⟨rfl, rfl⟩ |
    ⟨rfl, rfl⟩ | ⟨rfl, rfl⟩ | ⟨rfl, rfl⟩ | ⟨rfl, rfl⟩ | ⟨rfl, rfl⟩ | ⟨rfl, rfl⟩ | ⟨rfl, rfl⟩
  · obtain ⟨x, rfl⟩ := argsTyped_one ht
    exact (operation_iff rfl).trans ((CheckedEntry.defined_counted rfl).trans Checked.square_defined)
  · obtain ⟨x, y, rfl⟩ := argsTyped_two ht
    exact (operation_iff rfl).trans ((CheckedEntry.defined_counted rfl).trans Checked.add_defined)
  · exact operation_free rfl trivial (Option.some_ne_none _) (Checked.boom_eq a)
  · obtain ⟨m, rfl⟩ := argsTyped_one ht
    exact operation_free rfl trivial (Checked.busySum_count m) (Checked.busySum_eq _)
  · exact operation_free rfl trivial (Option.some_ne_none _) (Checked.scaleDouble_eq a)
  · exact operation_free rfl trivial (Option.some_ne_none _) (Checked.chainSum_eq _ a)
  · obtain ⟨m, parts, rfl⟩ := argsTyped_two ht
    exact operation_free rfl trivial (Option.some_ne_none _) (Checked.fanoutSum_eq _)
  · obtain ⟨ms, rfl⟩ := argsTyped_one ht
    exact operation_free rfl trivial (Checked.parkMs_count ms) (Checked.parkMs_eq _)
  · exact operation_free rfl trivial (Option.some_ne_none _) (Checked.chainSum_eq _ a)
  · exact operation_free rfl trivial (Option.some_ne_none _) (Checked.chainFanout_eq a)
  · obtain ⟨seed, leaves, quantum, rfl⟩ := argsTyped_three ht
    exact (operation_iff rfl).trans
      ((CheckedEntry.defined_counted rfl).trans (Checked.barrierFaninRecorded_defined hd))
  · exact operation_free rfl trivial (Option.some_ne_none _) (Checked.diamondFanin_eq a)
  · obtain ⟨seed, quantum, mode, rfl⟩ := argsTyped_three ht
    exact (operation_iff rfl).trans
      ((CheckedEntry.defined_counted rfl).trans (Checked.overlapProbeRecorded_defined hd))

/-! ## methods -/

theorem method_iff {n : Native} {i : Nat} {m : String} {a : OpArgs} {c : CounterState}
    {e : CheckedEntry ActorState} (hc : n.actors[i]? = some (.counter c))
    (h : Checked.counterMethods.lookup m = some e) :
    (NativeCall.method i m a).Defined n ↔ e.Defined a (.counter c) := by
  refine ⟨fun hd => hd _ e hc h, ?_⟩
  intro he st e' hst h'
  obtain rfl := Option.some.inj (hc.symm.trans hst)
  obtain rfl := Option.some.inj (h.symm.trans h')
  exact he

/-- a method whose arithmetic always fits -/
theorem method_free {n : Native} {i : Nat} {m : String} {a : OpArgs} {c : CounterState}
    {e : CheckedEntry ActorState} {p : Prog ActorState Exc OpOutcome}
    (hc : n.actors[i]? = some (.counter c)) (h : Checked.counterMethods.lookup m = some e)
    (hfits : (NativeCall.method i m a).Fits n) (hcount : e.checkpointCount a ≠ none)
    (hp : e.fn a = p.mapErr Fault.exc) :
    (NativeCall.method i m a).Defined n ↔ (NativeCall.method i m a).Fits n :=
  ⟨fun _ => hfits, fun _ => (method_iff hc h).2 (CheckedEntry.defined_of hcount hp)⟩

theorem method_defined_iff {n : Native} {i : Nat} {m : String} {a : OpArgs} {c : CounterState}
    {e : OpEntry ActorState} (hc : n.actors[i]? = some (.counter c))
    (h : counterMethods.lookup m = some e) (ht : ArgsTyped e.argTypes (a.map pyOf)) :
    (NativeCall.method i m a).Defined n ↔ (NativeCall.method i m a).Fits n := by
  have hmem : (m, e) ∈ counterMethods := mem_of_lookup h
  simp only [counterMethods, List.mem_cons, List.not_mem_nil, or_false, Prod.mk.injEq] at hmem
  rcases hmem with ⟨rfl, rfl⟩ | ⟨rfl, rfl⟩ | ⟨rfl, rfl⟩ | ⟨rfl, rfl⟩
  · obtain ⟨delta, rfl⟩ := argsTyped_one ht
    refine (method_iff hc rfl).trans ((CheckedEntry.defined_counted rfl).trans ?_)
    rw [Checked.counterAdd_defined]
    refine ⟨fun h c' hc' => ?_, fun h => h c hc⟩
    obtain ⟨⟩ := hc.symm.trans hc'
    exact h
  · exact method_free hc rfl trivial (Option.some_ne_none _) rfl
  · exact method_free hc rfl trivial (Option.some_ne_none _) rfl
  · obtain ⟨w, rfl⟩ := argsTyped_one ht
    exact method_free hc rfl trivial (Checked.busySum_count w) (Checked.counterBusyGet_eq _)

/-! ## histories of calls -/

/-- what the boundary makes of a method call -/
theorem validateActorCall_ok {t m : String} {args out : List PyObj}
    (h : validateActorCall (.str t) (.str m) args = .ok out) :
    ∃ entry method, actorRegistry.lookup t = some entry ∧ entry.methods.lookup m = some method ∧
      out = args ∧ ArgsTyped method.argTypes args := by
  rw [validateActorCall] at h
  rcases ht : actorRegistry.lookup t with _ | entry
  · rw [ht] at h
    cases h
  · rw [ht] at h
    dsimp only at h
    rcases hm : entry.methods.lookup m with _ | method
    · rw [hm] at h
      cases h
    · rw [hm] at h
      dsimp only at h
      obtain ⟨out', hout, hrest⟩ := bind_ok_iff.mp h
      have hres : out' = out := by
        split at hrest
        · obtain ⟨_, _, hlast⟩ := bind_ok_iff.mp hrest
          exact Except.ok.inj hlast
        · exact Except.ok.inj hrest
      obtain ⟨hargs, htyped⟩ := validateTypedArgs_iff.1 hout
      exact ⟨entry, method, rfl, hm, hres.symm.trans hargs, htyped⟩

/-- **One call.**  What the boundary accepts is free of undefined expressions exactly when it fits. -/
theorem call_defined_iff (n : Native) (r : PublicCall) : CallDefined n r ↔ CallFits n r := by
  refine forall_congr' fun c => imp_congr_right fun h => ?_
  cases r with
  | submitOperation opId args =>
    cases opId with
    | str op =>
      unfold accept at h
      dsimp only at h
      rcases hv : validateCall (.str op) args opTable with err | out
      · rw [hv] at h
        cases h
      · rw [hv] at h
        dsimp only at h
        obtain ⟨rfl, sig, hsig, ht, hd⟩ := validateCall_iff.1 hv
        obtain ⟨a, rfl⟩ := argsTyped_pyOf ht
        rw [marshalArgs_pyOf] at h
        cases h
        exact operation_defined_iff hsig ht hd
    | _ => cases h
  | createActor t args =>
    -- a factory has no arithmetic
    unfold accept at h
    dsimp only at h
    split at h
    · obtain ⟨entry, _, h⟩ := Option.bind_eq_some_iff.1 h
      obtain ⟨a, _, h⟩ := Option.bind_eq_some_iff.1 h
      obtain ⟨st, _, h⟩ := Option.bind_eq_some_iff.1 h
      cases h
      exact Iff.rfl
    · cases h
  | callMethod i m args =>
    obtain ⟨st, hst, hcall⟩ := Option.bind_eq_some_iff.1 h
    cases st with
    | counter c =>
      cases m with
      | str m =>
        rcases hv : validateActorCall (.str "counter") (.str m) args with err | out
        · rw [ActorState.typeId, hv] at hcall
          cases hcall
        · rw [ActorState.typeId, hv] at hcall
          dsimp only at hcall
          obtain ⟨entry, method, ht, hm, rfl, htyped⟩ := validateActorCall_ok hv
          cases ht
          obtain ⟨a, rfl⟩ := argsTyped_pyOf htyped
          rw [marshalArgs_pyOf] at hcall
          cases hcall
          exact method_defined_iff hst hm htyped
      | _ => cases hcall

/-- **Signed overflow behind the boundary.**  In a history of public calls every accepted call is
free of undefined expressions exactly when every one fits: an accepted `square` takes at most
`3037000499` in absolute value, an accepted `add` a sum in the range, the `add` of a counter keeps its
value in the range, and the sequence numbers have not run out. -/
theorem native_defined_iff (n : Native) (rs : List PublicCall) :
    stepsMeet Native.step CallDefined n rs ↔ stepsMeet Native.step CallFits n rs :=
  stepsMeet_iff (I := fun _ => True) (fun n r _ => call_defined_iff n r) (fun _ _ _ _ _ _ => trivial)
    trivial rs

/-- the boundary accepts the first square that does not fit -/
theorem square_overflows :
    validateCall (.str "square") [.int 3037000500] opTable = .ok [.int 3037000500] ∧
      ¬ stepsMeet Native.step CallDefined Native.start
        [.submitOperation (.str "square") [.int 3037000500]] := by
  refine ⟨rfl, ?_⟩
  rintro ⟨h, _⟩
  obtain ⟨_, hbody⟩ := h (.operation "square" [.int64 3037000500]) rfl _ rfl
  exact absurd (Checked.square_defined.1 hbody) (by decide)

end RayX
