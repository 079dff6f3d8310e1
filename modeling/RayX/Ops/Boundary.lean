import RayX.Ops.Validate

/-!
# The boundary and the native guards agree

`validateCall` against the bodies of the registry, for arguments of the declared number and types.

* `ArgsTyped`, `pyOf`        arguments in the ranges of their types, and the objects of the channel;
* `validateCall_iff`         the typed part of the boundary changes nothing, the domain part decides;
* `marshalArgs_pyOf`         the marshalling brings the values of the channel back;
* `inDomain_iff`, …          the domain checks as inequalities;
* `GuardedBody`, `Governed`  a body behind a guard that agrees with a domain, and any body on its
                             domain;
* `boundary_agrees`          **what the boundary accepts completes, and for a guarded body the boundary
                             accepts what the guard lets pass.**
-/

namespace RayX
open Sys

/-! ## typed arguments -/

/-- an argument of the declared type, in the range of the type -/
def PyObj.typed : OpType → PyObj → Prop
  | .int64, .int n => int64Min ≤ n ∧ n ≤ int64Max
  | .double, .float x => x.isFinite = true
  | _, _ => False

/-- as many arguments as declared, each typed -/
def ArgsTyped : List OpType → List PyObj → Prop
  | [], [] => True
  | t :: types, o :: args => o.typed t ∧ ArgsTyped types args
  | _, _ => False

/-- the Python object of a value of the channel -/
def pyOf : OpValue → PyObj
  | .int64 v => .int v.toInt
  | .double x => .float x

theorem toInt_mem (v : Int64) : int64Min ≤ v.toInt ∧ v.toInt ≤ int64Max := by
  have hlo := Int64.le_toInt v
  have hhi := Int64.toInt_lt v
  rw [int64Min, int64Max]
  omega

theorem toInt_ofInt {n : Int} (h : int64Min ≤ n ∧ n ≤ int64Max) : (Int64.ofInt n).toInt = n := by
  rw [int64Min, int64Max] at h
  exact Int64.toInt_ofInt_of_le (by omega) (by omega)

theorem typed_pyOf {t : OpType} {o : PyObj} (h : o.typed t) : ∃ v, o = pyOf v := by
  cases t with
  | int64 =>
    cases o with
    | int n => exact ⟨.int64 (Int64.ofInt n), by rw [pyOf, toInt_ofInt h]⟩
    | _ => exact h.elim
  | double =>
    cases o with
    | float x => exact ⟨.double x, rfl⟩
    | _ => exact h.elim

theorem argsTyped_pyOf {types : List OpType} {args : List PyObj} (h : ArgsTyped types args) :
    ∃ a : OpArgs, args = a.map pyOf := by
  induction types generalizing args with
  | nil =>
    cases args with
    | nil => exact ⟨[], rfl⟩
    | cons o args => exact h.elim
  | cons t types ih =>
    cases args with
    | nil => exact h.elim
    | cons o args =>
      obtain ⟨v, hv⟩ := typed_pyOf h.1
      obtain ⟨a, ha⟩ := ih h.2
      exact ⟨v :: a, by rw [hv, ha, List.map_cons]⟩

/-- the head of a list typed `int64` -/
theorem argsTyped_int64 {types : List OpType} {a : OpArgs}
    (h : ArgsTyped (.int64 :: types) (a.map pyOf)) :
    ∃ x a', a = .int64 x :: a' ∧ ArgsTyped types (a'.map pyOf) := by
  cases a with
  | nil => exact h.elim
  | cons v a =>
    cases v with
    | int64 x => exact ⟨x, a, rfl, h.2⟩
    | double x => exact h.1.elim

theorem argsTyped_double {types : List OpType} {a : OpArgs}
    (h : ArgsTyped (.double :: types) (a.map pyOf)) :
    ∃ x a', a = .double x :: a' ∧ ArgsTyped types (a'.map pyOf) := by
  cases a with
  | nil => exact h.elim
  | cons v a =>
    cases v with
    | int64 x => exact h.1.elim
    | double x => exact ⟨x, a, rfl, h.2⟩

theorem argsTyped_nil {a : OpArgs} (h : ArgsTyped [] (a.map pyOf)) : a = [] := by
  cases a with
  | nil => rfl
  | cons v a => exact h.elim

theorem argsTyped_one {a : OpArgs} (h : ArgsTyped [.int64] (a.map pyOf)) : ∃ x, a = [.int64 x] := by
  obtain ⟨x, a', rfl, h'⟩ := argsTyped_int64 h
  obtain rfl := argsTyped_nil h'
  exact ⟨x, rfl⟩

theorem argsTyped_two {a : OpArgs} (h : ArgsTyped [.int64, .int64] (a.map pyOf)) :
    ∃ x y, a = [.int64 x, .int64 y] := by
  obtain ⟨x, a', rfl, h'⟩ := argsTyped_int64 h
  obtain ⟨y, rfl⟩ := argsTyped_one h'
  exact ⟨x, y, rfl⟩

theorem argsTyped_three {a : OpArgs} (h : ArgsTyped [.int64, .int64, .int64] (a.map pyOf)) :
    ∃ x y z, a = [.int64 x, .int64 y, .int64 z] := by
  obtain ⟨x, a', rfl, h'⟩ := argsTyped_int64 h
  obtain ⟨y, z, rfl⟩ := argsTyped_two h'
  exact ⟨x, y, z, rfl⟩

theorem argsTyped_four {a : OpArgs} (h : ArgsTyped [.int64, .int64, .int64, .int64] (a.map pyOf)) :
    ∃ x y z w, a = [.int64 x, .int64 y, .int64 z, .int64 w] := by
  obtain ⟨x, a', rfl, h'⟩ := argsTyped_int64 h
  obtain ⟨y, z, w, rfl⟩ := argsTyped_three h'
  exact ⟨x, y, z, w, rfl⟩

theorem argsTyped_doubles {a : OpArgs} (h : ArgsTyped [.double, .double] (a.map pyOf)) :
    ∃ x y, a = [.double x, .double y] := by
  obtain ⟨x, a', rfl, h'⟩ := argsTyped_double h
  obtain ⟨y, a'', rfl, h''⟩ := argsTyped_double h'
  obtain rfl := argsTyped_nil h''
  exact ⟨x, y, rfl⟩

/-! ## the typed part of the boundary -/

theorem typeValidator_iff {t : OpType} {label : String} {i : Nat} {o v : PyObj} :
    typeValidator t label i o = .ok v ↔ v = o ∧ o.typed t := by
  cases t with
  | int64 =>
    cases o with
    | int n =>
      have hmem : PyObj.typed .int64 (.int n) ↔ ¬ (n < int64Min ∨ int64Max < n) := by
        show int64Min ≤ n ∧ n ≤ int64Max ↔ _
        omega
      rw [typeValidator, validateInt64, hmem]
      split
      · exact ⟨nofun, fun h => absurd ‹_› h.2⟩
      · exact ⟨fun h => ⟨(Except.ok.inj h).symm, ‹_›⟩, fun h => by rw [h.1]⟩
    | _ => exact ⟨nofun, fun h => h.2.elim⟩
  | double =>
    cases o with
    | float x =>
      rw [typeValidator, validateDouble]
      split
      · exact ⟨fun h => ⟨(Except.ok.inj h).symm, ‹_›⟩, fun h => by rw [h.1]⟩
      · exact ⟨nofun, fun h => absurd h.2 ‹_›⟩
    | _ => exact ⟨nofun, fun h => h.2.elim⟩

theorem validateArgs_iff {label : String} {i : Nat} {types : List OpType} {args out : List PyObj}
    (hlen : args.length = types.length) :
    validateArgs label i args types = .ok out ↔ out = args ∧ ArgsTyped types args := by
  induction types generalizing args out i with
  | nil =>
    obtain rfl := List.eq_nil_of_length_eq_zero hlen
    exact ⟨fun h => ⟨(Except.ok.inj h).symm, trivial⟩, fun h => by rw [h.1]; rfl⟩
  | cons t types ih =>
    cases args with
    | nil => cases hlen
    | cons o args =>
      rw [validateArgs, bind_ok_iff]
      constructor
      · rintro ⟨v, hv, h⟩
        obtain ⟨vs, hvs, h⟩ := bind_ok_iff.mp h
        cases h
        obtain ⟨rfl, ho⟩ := typeValidator_iff.1 hv
        obtain ⟨rfl, hargs⟩ := (ih (Nat.succ.inj hlen)).1 hvs
        exact ⟨rfl, ho, hargs⟩
      · rintro ⟨rfl, ho, hargs⟩
        exact ⟨o, typeValidator_iff.2 ⟨rfl, ho⟩,
          bind_ok_iff.2 ⟨args, (ih (Nat.succ.inj hlen)).2 ⟨rfl, hargs⟩, rfl⟩⟩

theorem argsTyped_length {types : List OpType} {args : List PyObj} (h : ArgsTyped types args) :
    args.length = types.length := by
  induction types generalizing args with
  | nil =>
    cases args with
    | nil => rfl
    | cons o args => exact h.elim
  | cons t types ih =>
    cases args with
    | nil => exact h.elim
    | cons o args => rw [List.length_cons, List.length_cons, ih h.2]

/-- **The typed part of the boundary changes nothing**, it accepts exactly the typed lists. -/
theorem validateTypedArgs_iff {label : String} {types : List OpType} {args out : List PyObj} :
    validateTypedArgs label args types = .ok out ↔ out = args ∧ ArgsTyped types args := by
  rw [validateTypedArgs]
  by_cases hlen : args.length = types.length
  · rw [if_neg (not_not_intro hlen)]
    exact validateArgs_iff hlen
  · rw [if_pos hlen]
    exact ⟨nofun, fun h => absurd (argsTyped_length h.2) hlen⟩

/-- the signature row of a registered operation -/
theorem opTable_lookup {σ : Type} {opId : String} {e : OpEntry σ} (h : findOp opId = some e) :
    opTable.lookup opId = some { argTypes := e.argTypes, resultType := e.resultType } := by
  have hmem := findOp_mem h
  simp only [registry, hpxRegistry, List.cons_append, List.nil_append, List.mem_cons,
    List.not_mem_nil, or_false, Prod.mk.injEq] at hmem
  rcases hmem with ⟨rfl, rfl⟩ | ⟨rfl, rfl⟩ | ⟨rfl, rfl⟩ | ⟨rfl, rfl⟩ | ⟨rfl, rfl⟩ | ⟨rfl, rfl⟩ |
    ⟨rfl, rfl⟩ | ⟨rfl, rfl⟩ | ⟨rfl, rfl⟩ | ⟨rfl, rfl⟩ | ⟨rfl, rfl⟩ | ⟨rfl, rfl⟩ | ⟨rfl, rfl⟩
  all_goals rfl

/-- a call is accepted when its arguments are typed and in the domain of the operation -/
theorem validateCall_iff {opId : String} {args out : List PyObj} :
    validateCall (.str opId) args opTable = .ok out ↔ out = args ∧ ∃ sig,
      opTable.lookup opId = some sig ∧ ArgsTyped sig.argTypes args ∧ opDomain opId args = .ok () := by
  rw [validateCall]
  rcases opTable.lookup opId with _ | sig
  · constructor
    · intro h
      cases h
    · rintro ⟨_, _, ⟨⟩, _⟩
  · dsimp only
    rw [bind_ok_iff]
    constructor
    · rintro ⟨out', hout, h⟩
      obtain ⟨u, hd, h⟩ := bind_ok_iff.mp h
      cases h
      obtain ⟨rfl, ht⟩ := validateTypedArgs_iff.1 hout
      exact ⟨rfl, sig, rfl, ht, hd⟩
    · rintro ⟨rfl, _, ⟨⟩, ht, hd⟩
      exact ⟨out, validateTypedArgs_iff.2 ⟨rfl, ht⟩, bind_ok_iff.2 ⟨(), hd, rfl⟩⟩

/-! ## marshalling -/

theorem marshalArg_pyOf (what : String) (i : Nat) (v : OpValue) :
    marshalArg what i (pyOf v) = .ok v := by
  cases v with
  | int64 v =>
    rw [pyOf, marshalArg, castInt64, if_pos (toInt_mem v), Int64.ofInt_toInt]
    rfl
  | double x => rfl

theorem marshalArgs_pyOf (what : String) (a : OpArgs) : marshalArgs what (a.map pyOf) = .ok a := by
  -- from any position on
  have hfrom : ∀ i, marshalFrom what i (a.map pyOf) = .ok a := by
    induction a with
    | nil =>
      intro i
      rfl
    | cons v a ih =>
      intro i
      rw [List.map_cons, marshalFrom, marshalArg_pyOf, ih]
      rfl
  exact hfrom 0

/-! ## the domains -/

theorem seq_ok_iff {p q : Except PyErr Unit} :
    (p >>= fun _ => q) = .ok () ↔ p = .ok () ∧ q = .ok () := by
  rw [bind_ok_iff]
  exact ⟨fun ⟨_, hp, hq⟩ => ⟨hp, hq⟩, fun ⟨hp, hq⟩ => ⟨(), hp, hq⟩⟩

theorem atLeast_iff {label name : String} {i : Nat} {lo x : Int} :
    atLeast label i name lo x = .ok () ↔ lo ≤ x := by
  refine ⟨atLeast_ok, fun h => ?_⟩
  rw [atLeast, if_neg (Int.not_lt.2 h)]

theorem atMost_iff {label name : String} {i : Nat} {hi x : Int} :
    atMost label i name hi x = .ok () ↔ x ≤ hi := by
  refine ⟨atMost_ok, fun h => ?_⟩
  rw [atMost, if_neg (Int.not_lt.2 h)]

/-- an inclusive domain of the boundary is the inclusive range of a native guard -/
theorem inDomain_iff (lo hi : Int64) {label name : String} {i : Nat} {out : List PyObj} {x : Int64}
    (hx : argInt out i = x.toInt) :
    inDomain label i name lo.toInt hi.toInt out = .ok () ↔ badRange lo hi x = false := by
  rw [inDomain, seq_ok_iff, atLeast_iff, atMost_iff, hx, badRange_iff]

theorem chainDomain_iff {label : String} {out : List PyObj} {steps quantum : Int64}
    (hs : argInt out 1 = steps.toInt) (hq : argInt out 2 = quantum.toInt) :
    chainDomain label out = .ok ()
      ↔ (badRange 0 chainStepsMax steps || badRange 0 chainQuantumMax quantum) = false := by
  rw [Bool.or_eq_false_iff]
  apply seq_ok_iff.trans
  apply and_congr
  · exact inDomain_iff 0 chainStepsMax hs
  · exact inDomain_iff 0 chainQuantumMax hq

theorem not_neg_iff {label name : String} {i : Nat} {x : Int64} :
    atLeast label i name 0 x.toInt = .ok () ↔ decide (x < 0) = false := by
  rw [atLeast_iff, decide_eq_false_iff_not, Int64.lt_iff_toInt_lt]
  exact Int.not_lt.symm

theorem mode_iff {msg : String} {mode : Int64} :
    (if mode.toInt = 0 ∨ mode.toInt = 1 then .ok () else valueError msg) = (.ok () : Except PyErr Unit)
      ↔ (mode != 0 && mode != 1) = false := by
  have h0 : mode.toInt = 0 ↔ mode = 0 := Int64.toInt_inj (y := 0)
  have h1 : mode.toInt = 1 ↔ mode = 1 := Int64.toInt_inj (y := 1)
  rw [Bool.and_eq_false_iff, bne_eq_false_iff_eq, bne_eq_false_iff_eq, ← h0, ← h1]
  by_cases hm : mode.toInt = 0 ∨ mode.toInt = 1
  · rw [if_pos hm]
    exact ⟨fun _ => hm, fun _ => rfl⟩
  · rw [if_neg hm]
    exact ⟨nofun, fun h => absurd h hm⟩

/-! ## guarded bodies -/

section
variable {σ : Type}

/-- the body completes after the polls that `c` announces, and is cancelled by each of them -/
def Settles (c : Int) (p : Prog σ Exc OpOutcome) : Prop :=
  p.Polls isCompleted isCancelled (c - 1).toNat

/-- a body that settles in its domain and throws outside of it, before any effect -/
structure GuardedBody (domain : Except PyErr Unit) (c : Int) (p : Prog σ Exc OpOutcome) : Prop where
  settles : domain = .ok () → Settles c p
  throws : domain ≠ .ok () → ∃ msg, p = .throw (.invalidArgument msg)

theorem guarded {domain : Except PyErr Unit} {bad : Bool} {msg : String} {c : Int}
    {f : Unit → Prog σ Exc OpOutcome} (hiff : domain = .ok () ↔ bad = false)
    (hf : Settles c (f ())) : GuardedBody domain c (guardArgs bad msg >>= f) := by
  cases bad with
  | true => exact ⟨fun h => absurd (hiff.1 h) nofun, fun _ => ⟨msg, rfl⟩⟩
  | false => exact ⟨fun _ => hf, fun h => absurd (hiff.2 rfl) h⟩

theorem settles_done (v : OpValue) : Settles 1 (pure (.done v) : Prog σ Exc OpOutcome) := ⟨rfl, rfl⟩

variable {x n parts seed count steps quantum leaves ms mode : Int64}

theorem busySum_settles (n : Int64) :
    Settles (busySumCheckpoints n) (busySum [.int64 n] : Prog σ Exc OpOutcome) :=
  loop_settles (runMaskedCheckpointLoop_polls n)

theorem fanoutSum_guarded :
    GuardedBody (opDomain "fanout_sum" [.int n.toInt, .int parts.toInt]) 1
      (fanoutSum [.int64 n, .int64 parts] : Prog σ Exc OpOutcome) := by
  apply guarded _ (settles_done _)
  rw [Bool.or_eq_false_iff]
  apply seq_ok_iff.trans
  apply and_congr
  · exact not_neg_iff
  · exact inDomain_iff 1 fanoutPartsMax rfl

theorem parkMs_guarded :
    GuardedBody (opDomain "park_ms" [.int ms.toInt]) (parkMsCheckpoints ms)
      (parkMs [.int64 ms] : Prog σ Exc OpOutcome) := by
  have hloop : Settles (parkMsCheckpoints ms)
      (parkLoop ms >>= fun r => pure (loopOutcome (fun _ => .int64 ms) r) : Prog σ Exc OpOutcome) :=
    loop_settles (parkLoop_polls ms)
  refine guarded (f := fun _ => parkLoop ms >>= fun r => pure (loopOutcome (fun _ => .int64 ms) r))
    ?_ hloop
  exact inDomain_iff 0 parkMsMax rfl

theorem chainSum_guarded (op label : String) :
    GuardedBody (chainDomain label [.int seed.toInt, .int steps.toInt, .int quantum.toInt]) 1
      (chainSum op [.int64 seed, .int64 steps, .int64 quantum] : Prog σ Exc OpOutcome) := by
  apply guarded _ (settles_done _)
  exact chainDomain_iff rfl rfl

theorem chainFanout_guarded :
    GuardedBody (opDomain "chain_fanout"
        [.int seed.toInt, .int count.toInt, .int steps.toInt, .int quantum.toInt]) 1
      (chainFanout [.int64 seed, .int64 count, .int64 steps, .int64 quantum]
        : Prog σ Exc OpOutcome) := by
  apply guarded _ (settles_done _)
  rw [Bool.or_eq_false_iff, Bool.or_eq_false_iff, and_assoc]
  apply seq_ok_iff.trans
  apply and_congr
  · exact inDomain_iff 1 chainFanoutKMax rfl
  apply seq_ok_iff.trans
  apply and_congr
  · exact inDomain_iff 0 chainStepsMax rfl
  · exact inDomain_iff 0 chainQuantumMax rfl

theorem barrierFanin_domain :
    opDomain "barrier_fanin" [.int seed.toInt, .int leaves.toInt, .int quantum.toInt] = .ok ()
      ↔ (badRange 1 faninLeavesMax leaves || badRange 0 chainQuantumMax quantum) = false := by
  rw [Bool.or_eq_false_iff]
  apply seq_ok_iff.trans
  apply and_congr
  · exact inDomain_iff 1 faninLeavesMax rfl
  · exact inDomain_iff 0 chainQuantumMax rfl

theorem barrierFanin_guarded :
    GuardedBody (opDomain "barrier_fanin" [.int seed.toInt, .int leaves.toInt, .int quantum.toInt]) 1
      (barrierFanin [.int64 seed, .int64 leaves, .int64 quantum] : Prog σ Exc OpOutcome) :=
  guarded barrierFanin_domain (settles_done _)

theorem diamondFanin_guarded :
    GuardedBody (opDomain "diamond_fanin" [.int seed.toInt, .int quantum.toInt]) 1
      (diamondFanin [.int64 seed, .int64 quantum] : Prog σ Exc OpOutcome) := by
  apply guarded _ (settles_done _)
  exact inDomain_iff 0 chainQuantumMax rfl

theorem overlapProbe_domain :
    opDomain "overlap_probe" [.int seed.toInt, .int quantum.toInt, .int mode.toInt] = .ok ()
      ↔ (badRange 0 chainQuantumMax quantum || (mode != 0 && mode != 1)) = false := by
  rw [Bool.or_eq_false_iff]
  apply seq_ok_iff.trans
  apply and_congr
  · exact inDomain_iff 0 chainQuantumMax rfl
  · exact mode_iff

theorem overlapProbe_guarded :
    GuardedBody (opDomain "overlap_probe" [.int seed.toInt, .int quantum.toInt, .int mode.toInt]) 1
      (overlapProbe [.int64 seed, .int64 quantum, .int64 mode] : Prog σ Exc OpOutcome) :=
  guarded overlapProbe_domain (settles_done _)

/-! ## agreement -/

/-- the operations with a native guard -/
def guardedOps : List String :=
  ["fanout_sum", "park_ms", "chain_sum_loop", "chain_sum_then", "chain_fanout", "barrier_fanin",
    "diamond_fanin", "overlap_probe"]

def Accepts (opId : String) (args : List PyObj) : Prop :=
  ∃ out, validateCall (.str opId) args opTable = .ok out

/-- no run of the body throws -/
def NoThrow (p : Prog σ Exc OpOutcome) : Prop := p.Always (fun r => ∃ o, r = .ok o)

theorem Settles.noThrow {c : Int} {p : Prog σ Exc OpOutcome} (h : Settles c p) : NoThrow p := by
  apply h.always
  · intro r hr
    cases r with
    | ok o => exact ⟨o, rfl⟩
    | error e => exact hr.elim
  · intro r hr
    cases r with
    | ok o => exact ⟨o, rfl⟩
    | error e => exact hr.elim

/-- the row of a service task has the given status, and no throw leaves the task -/
def rowStatus (status : Status) : Except Exc RuntimeResult → Prop
  | .ok row => row.status = status
  | .error _ => False

theorem Settles.row {c : Int} {p : Prog σ Exc OpOutcome} (h : Settles c p) (unknown actor : String) :
    (serviceTask unknown actor p).Polls (rowStatus .completed) (rowStatus .cancelled)
      (c - 1).toNat := by
  refine serviceTask_polls h ?_ ?_ ?_ ?_
  · exact fun o _ _ ho => ho
  · exact fun e _ _ he => he.elim
  · exact fun o _ _ ho => ho
  · exact fun e _ _ he => he.elim

/-- what the boundary and the body of an operation do with the arguments `args` -/
structure BoundaryAgrees (opId : String) (e : OpEntry σ) (args : List PyObj) (a : OpArgs) : Prop where
  unchanged : ∀ out, validateCall (.str opId) args opTable = .ok out → out = args
  marshals : ∀ what, marshalArgs what args = .ok a
  noThrow : Accepts opId args → NoThrow (e.fn a)
  rows : Accepts opId args → ∀ actor, (makeOpTask e.fn a actor).Polls (rowStatus .completed)
    (rowStatus .cancelled) (e.checkpointCount a - 1).toNat
  guards : opId ∈ guardedOps → (Accepts opId args ↔ NoThrow (e.fn a))
  throws : opId ∈ guardedOps → ¬ Accepts opId args →
    ∃ msg, e.fn a = .throw (.invalidArgument msg)

variable {opId : String} {e : OpEntry σ}

/-- the acceptance of typed arguments is up to the domain -/
theorem accepts_iff (h : findOp opId = some e) {args : List PyObj} (ht : ArgsTyped e.argTypes args) :
    Accepts opId args ↔ opDomain opId args = .ok () := by
  constructor
  · rintro ⟨out, hout⟩
    obtain ⟨_, _, _, _, hd⟩ := validateCall_iff.1 hout
    exact hd
  · intro hd
    exact ⟨args, validateCall_iff.2 ⟨rfl, _, opTable_lookup h, ht, hd⟩⟩

/-- a guarded body where a guard is registered, and a body that settles on its domain anyway -/
def Governed (opId : String) (domain : Except PyErr Unit) (c : Int) (p : Prog σ Exc OpOutcome) :
    Prop :=
  (domain = .ok () → Settles c p) ∧ (opId ∈ guardedOps → GuardedBody domain c p)

theorem GuardedBody.governed {domain : Except PyErr Unit} {c : Int} {p : Prog σ Exc OpOutcome}
    (h : GuardedBody domain c p) : Governed opId domain c p := ⟨h.settles, fun _ => h⟩

theorem Settles.governed {domain : Except PyErr Unit} {c : Int} {p : Prog σ Exc OpOutcome}
    (h : Settles c p) (hno : opId ∉ guardedOps) : Governed opId domain c p :=
  ⟨fun _ => h, fun hg => absurd hg hno⟩

/-- every body but `boom` is governed by the domain of its operation -/
theorem registered_governed (h : findOp opId = some e) (hboom : opId ≠ "boom") {a : OpArgs}
    (ht : ArgsTyped e.argTypes (a.map pyOf)) :
    Governed opId (opDomain opId (a.map pyOf)) (e.checkpointCount a) (e.fn a) := by
  have hmem := findOp_mem h
  simp only [registry, hpxRegistry, List.cons_append, List.nil_append, List.mem_cons,
    List.not_mem_nil, or_false, Prod.mk.injEq] at hmem
  rcases hmem with ⟨rfl, rfl⟩ | ⟨rfl, rfl⟩ | ⟨rfl, rfl⟩ | ⟨rfl, rfl⟩ | ⟨rfl, rfl⟩ | ⟨rfl, rfl⟩ |
    ⟨rfl, rfl⟩ | ⟨rfl, rfl⟩ | ⟨rfl, rfl⟩ | ⟨rfl, rfl⟩ | ⟨rfl, rfl⟩ | ⟨rfl, rfl⟩ | ⟨rfl, rfl⟩
  · obtain ⟨x, rfl⟩ := argsTyped_one ht
    exact (settles_done _).governed (by decide)
  · obtain ⟨x, y, rfl⟩ := argsTyped_two ht
    exact (settles_done _).governed (by decide)
  · exact absurd rfl hboom
  · obtain ⟨n, rfl⟩ := argsTyped_one ht
    exact (busySum_settles n).governed (by decide)
  · obtain ⟨x, factor, rfl⟩ := argsTyped_doubles ht
    exact (settles_done _).governed (by decide)
  · obtain ⟨seed, steps, quantum, rfl⟩ := argsTyped_three ht
    exact (chainSum_guarded _ _).governed
  · obtain ⟨n, parts, rfl⟩ := argsTyped_two ht
    exact fanoutSum_guarded.governed
  · obtain ⟨ms, rfl⟩ := argsTyped_one ht
    exact parkMs_guarded.governed
  · obtain ⟨seed, steps, quantum, rfl⟩ := argsTyped_three ht
    exact (chainSum_guarded _ _).governed
  · obtain ⟨seed, count, steps, quantum, rfl⟩ := argsTyped_four ht
    exact chainFanout_guarded.governed
  · obtain ⟨seed, leaves, quantum, rfl⟩ := argsTyped_three ht
    exact barrierFanin_guarded.governed
  · obtain ⟨seed, quantum, rfl⟩ := argsTyped_two ht
    exact diamondFanin_guarded.governed
  · obtain ⟨seed, quantum, mode, rfl⟩ := argsTyped_three ht
    exact overlapProbe_guarded.governed

/-- **The boundary and the native guards accept the same arguments.**  Typed arguments that the
boundary accepts reach the body unchanged, and the body does not throw: its row is completed, or
cancelled by a poll.  Behind a native guard the converse holds, the guard throws on every other list
of typed arguments. -/
theorem boundary_agrees (h : findOp opId = some e) (hboom : opId ≠ "boom") {args : List PyObj}
    (ht : ArgsTyped e.argTypes args) : ∃ a, BoundaryAgrees opId e args a := by
  obtain ⟨a, rfl⟩ := argsTyped_pyOf ht
  obtain ⟨hsettles, hguarded⟩ := registered_governed h hboom ht
  have hacc := accepts_iff h ht
  have hthrows : opId ∈ guardedOps → ¬ Accepts opId (a.map pyOf) →
      ∃ msg, e.fn a = .throw (.invalidArgument msg) :=
    fun hg hno => (hguarded hg).throws (fun hd => hno (hacc.2 hd))
  refine ⟨a, ?_, fun what => marshalArgs_pyOf what a, ?_, ?_, ?_, hthrows⟩
  · intro out hout
    exact (validateCall_iff.1 hout).1
  · intro ha
    exact (hsettles (hacc.1 ha)).noThrow
  · intro ha actor
    exact (hsettles (hacc.1 ha)).row _ actor
  · intro hg
    refine ⟨fun ha => (hsettles (hacc.1 ha)).noThrow, fun hno => ?_⟩
    apply Classical.byContradiction
    intro hrej
    obtain ⟨msg, hmsg⟩ := hthrows hg hrej
    rw [NoThrow, hmsg] at hno
    obtain ⟨o, ho⟩ := hno
    cases ho

end

/-- the largest fan-in that the boundary admits -/
theorem boundary_agrees_barrier :
    ∃ a, BoundaryAgrees (σ := Unit) "barrier_fanin"
      { arity := 3, fn := barrierFanin, checkpointCount := oneCheckpoint,
        argTypes := [.int64, .int64, .int64] } [.int 5, .int 64, .int 100000] a :=
  boundary_agrees rfl (by decide) ⟨⟨by decide, by decide⟩, ⟨by decide, by decide⟩,
    ⟨by decide, by decide⟩, trivial⟩

end RayX
