import RayX.Lib.Run
import Mathlib.Algebra.Group.Int.Defs
import Mathlib.Algebra.Group.Nat.Defs
import Mathlib.Data.List.Induction

/-!
# The process owner of HPX

`ProcessHpxOwner`: the six fields under `mu_`, the policy of `attach` and `detach`, and the calls of
`hpx::start` and `hpx::stop` in the middle of their critical sections.

* `Critical`       a critical section of `mu_`, cut where it starts or stops HPX;
* `attach`, `detach`, `hpxActive`, `endpointCount`   the four calls;
* `Lease`          what the owner is for: one holder of HPX and a number of endpoints, with the
                   policy as a field, so that a forbidden combination cannot be built;
* `owner_policy`   **the owner is a lease, HPX is started and stopped once per change of its holder,
                   and failed attaches and stray detaches change nothing, exactly as long as no
                   Endpoint attaches past the last value of the count**.
-/

namespace RayX
open Sys

inductive HpxAttachKind where
  | engine
  | runtime
  | endpoint
  deriving DecidableEq, Repr

/-- the fields, with their counts as numbers; `stored` is what two `int` fields keep of them -/
structure Owner where
  started : Bool := false
  hpxThreads : Int := 0
  hpxRefcount : Int := 0
  engine : Bool := false
  runtime : Bool := false
  endpoints : Int := 0
  deriving DecidableEq

/-- a count in an `int` wraps around -/
def Owner.stored (o : Owner) : Owner :=
  { o with
    hpxRefcount := o.hpxRefcount.bmod (2 ^ 32)
    endpoints := o.endpoints.bmod (2 ^ 32) }

inductive Ret where
  | unit
  | bool (b : Bool)
  | int (n : Int)
  deriving DecidableEq

/-- a critical section of `mu_` with the fields as they are: it ends, or it calls `hpx::start` or
`hpx::stop` with the GIL released and goes on -/
inductive Critical where
  | leave (r : Except String Ret) (o : Owner)
  | start (threads : Int) (o : Owner) (k : Except String Bool → Critical)
  | stop (o : Owner) (k : Critical)

/-! ## the calls -/

def conflictMsg (who : String) : String :=
  who ++ "() cannot start: it conflicts with an already-active "
    ++ "Engine/Runtime/Endpoint in this process (Engine is exclusive; Runtime is "
    ++ "a singleton; Endpoint coexists with Runtime but not Engine). Shut down the "
    ++ "conflicting owner first."

/-- `hpx::start` returns whether it started HPX, or throws -/
def startHpxLocked (threads : Int) (o : Owner) (k : Owner → Critical) : Critical :=
  if !o.started then
    .start threads o fun
      | .ok true => k { o with
        started := true
        hpxThreads := threads
        hpxRefcount := o.hpxRefcount + 1 }
      | .ok false => .leave (.error "hpx::start failed") o
      | .error what => .leave (.error what) o
  else k { o with hpxRefcount := o.hpxRefcount + 1 }

def stopHpxLocked (o : Owner) (k : Owner → Critical) : Critical :=
  if 0 < o.hpxRefcount then
    let o := { o with hpxRefcount := o.hpxRefcount - 1 }
    if o.hpxRefcount = 0 ∧ o.started then .stop o (k { o with started := false }) else k o
  else k o

def attach (kind : HpxAttachKind) (threads : Int) (o : Owner) : Critical :=
  match kind with
  | .engine =>
    if o.engine ∨ o.runtime ∨ 0 < o.endpoints then .leave (.error (conflictMsg "Engine")) o
    else startHpxLocked threads o fun o => .leave (.ok .unit) { o with engine := true }
  | .runtime =>
    if o.engine ∨ o.runtime then .leave (.error (conflictMsg "Runtime")) o
    else startHpxLocked threads o fun o => .leave (.ok .unit) { o with runtime := true }
  | .endpoint =>
    if o.engine then .leave (.error (conflictMsg "Endpoint")) o
    else .leave (.ok .unit) { o with endpoints := o.endpoints + 1 }

def detach (kind : HpxAttachKind) (o : Owner) : Critical :=
  match kind with
  | .engine =>
    if o.engine then stopHpxLocked { o with engine := false } (.leave (.ok .unit))
    else .leave (.ok .unit) o
  | .runtime =>
    if o.runtime then stopHpxLocked { o with runtime := false } (.leave (.ok .unit))
    else .leave (.ok .unit) o
  | .endpoint =>
    if 0 < o.endpoints then .leave (.ok .unit) { o with endpoints := o.endpoints - 1 }
    else .leave (.ok .unit) o

def hpxActive (o : Owner) : Critical := .leave (.ok (.bool o.started)) o

def endpointCount (o : Owner) : Critical := .leave (.ok (.int o.endpoints)) o

inductive OwnerCall where
  | attach (kind : HpxAttachKind) (threads : Int)
  | detach (kind : HpxAttachKind)
  | hpxActive
  | endpointCount

def OwnerCall.body : OwnerCall → Owner → Critical
  | .attach kind threads => RayX.attach kind threads
  | .detach kind => RayX.detach kind
  | .hpxActive => RayX.hpxActive
  | .endpointCount => RayX.endpointCount

/-! ## one call at a time -/

inductive HpxEvent where
  | started (threads : Int)
  | stopped
  deriving DecidableEq

/-- the section from its lock to its unlock, `hpx` the answer of `hpx::start` -/
def Critical.run (hpx : Except String Bool) : Critical → Except String Ret × Owner × List HpxEvent
  | .leave r o => (r, o, [])
  | .start threads _ k =>
    let rest := (k hpx).run hpx
    (rest.1, rest.2.1, (if hpx matches .ok true then [.started threads] else []) ++ rest.2.2)
  | .stop _ k =>
    let rest := k.run hpx
    (rest.1, rest.2.1, .stopped :: rest.2.2)

/-- the owner and what happened to HPX so far -/
structure Process where
  owner : Owner := {}
  hpx : List HpxEvent := []

def Process.step (p : Process) : OwnerCall × Except String Bool → Option Process
  | (call, hpx) =>
    let rest := (call.body p.owner).run hpx
    some { owner := rest.2.1.stored, hpx := p.hpx ++ rest.2.2 }

/-! ## the lease -/

inductive Holder where
  | engine
  | runtime
  deriving DecidableEq

structure Lease where
  holder : Option Holder
  endpoints : Nat
  exclusive : holder = some .engine → endpoints = 0

namespace Lease

def attach (l : Lease) : HpxAttachKind → Option Lease
  | .engine =>
    if l.holder = none ∧ l.endpoints = 0 then some ⟨some .engine, 0, fun _ => rfl⟩ else none
  | .runtime =>
    if l.holder = none then some ⟨some .runtime, l.endpoints, by simp⟩ else none
  | .endpoint =>
    if h : l.holder = some .engine then none
    else some ⟨l.holder, l.endpoints + 1, fun he => absurd he h⟩

/-- a detach of a kind that is not attached changes nothing -/
def detach (l : Lease) : HpxAttachKind → Lease
  | .engine => if l.holder = some .engine then ⟨none, l.endpoints, by simp⟩ else l
  | .runtime => if l.holder = some .runtime then ⟨none, l.endpoints, by simp⟩ else l
  | .endpoint => ⟨l.holder, l.endpoints - 1, fun he => by rw [l.exclusive he]⟩

def attached (l : Lease) : HpxAttachKind → Prop
  | .engine => l.holder = some .engine
  | .runtime => l.holder = some .runtime
  | .endpoint => 0 < l.endpoints

/-- the fields of the owner, `threads` what HPX was last started with -/
def owner (l : Lease) (threads : Int) : Owner where
  started := l.holder.isSome
  hpxThreads := threads
  hpxRefcount := if l.holder.isSome then 1 else 0
  engine := l.holder == some .engine
  runtime := l.holder == some .runtime
  endpoints := l.endpoints

/-- what a change of the holder does to HPX -/
def events (l l' : Lease) (threads : Int) : List HpxEvent :=
  if l.holder = none ∧ l'.holder ≠ none then [.started threads]
  else if l.holder ≠ none ∧ l'.holder = none then [.stopped]
  else []

variable (l : Lease) (threads : Int)

/-- **An attach throws and changes nothing, or it is the attach of the lease.** -/
theorem attach_run (kind : HpxAttachKind) (n : Int) (hpx : Except String Bool) :
    (∃ msg, (RayX.attach kind n (l.owner threads)).run hpx = (.error msg, l.owner threads, [])) ∨
    ∃ l' t, l.attach kind = some l' ∧
      (RayX.attach kind n (l.owner threads)).run hpx = (.ok .unit, l'.owner t, l.events l' n) := by
  obtain ⟨holder, endpoints, hex⟩ := l
  cases kind with
  | engine =>
    cases holder with
    | some h => exact Or.inl ⟨_, by cases h <;> rfl⟩
    | none =>
      by_cases he : endpoints = 0
      · subst he
        rcases hpx with what | b
        · exact Or.inl ⟨what, rfl⟩
        · cases b with
          | false => exact Or.inl ⟨_, rfl⟩
          | true => exact Or.inr ⟨_, n, rfl, rfl⟩
      · refine Or.inl ⟨conflictMsg "Engine", ?_⟩
        have hpos : 0 < endpoints := Nat.pos_of_ne_zero he
        simp [RayX.attach, owner, hpos, Critical.run]
  | runtime =>
    cases holder with
    | some h => exact Or.inl ⟨_, by cases h <;> rfl⟩
    | none =>
      rcases hpx with what | b
      · exact Or.inl ⟨what, rfl⟩
      · cases b with
        | false => exact Or.inl ⟨_, rfl⟩
        | true => exact Or.inr ⟨_, n, rfl, rfl⟩
  | endpoint =>
    cases holder with
    | none => exact Or.inr ⟨_, threads, rfl, rfl⟩
    | some h =>
      cases h with
      | engine => exact Or.inl ⟨_, rfl⟩
      | runtime => exact Or.inr ⟨_, threads, rfl, rfl⟩

/-- **A detach is the detach of the lease.** -/
theorem detach_run (kind : HpxAttachKind) (n : Int) (hpx : Except String Bool) :
    (RayX.detach kind (l.owner threads)).run hpx =
      (.ok .unit, (l.detach kind).owner threads, l.events (l.detach kind) n) := by
  obtain ⟨holder, endpoints, hex⟩ := l
  cases kind with
  | engine =>
    cases holder with
    | none => rfl
    | some h => cases h <;> rfl
  | runtime =>
    cases holder with
    | none => rfl
    | some h => cases h <;> rfl
  | endpoint =>
    have hevents : ∀ x, events ⟨holder, endpoints, hex⟩ (detach ⟨holder, endpoints, hex⟩ .endpoint) x
        = [] := by
      intro x
      cases holder <;> rfl
    rw [hevents]
    cases endpoints with
    | zero => rfl
    | succ m =>
      have hpos : 0 < ((m + 1 : Nat) : Int) := by omega
      have hpred : ((m + 1 : Nat) : Int) - 1 = ((m + 1 - 1 : Nat) : Int) := by omega
      simp only [RayX.detach, owner, hpos, if_true, hpred, Critical.run]
      rfl

/-- a detach of a kind that is not attached leaves the lease as it is -/
theorem detach_stray (kind : HpxAttachKind) (h : ¬ l.attached kind) : l.detach kind = l := by
  obtain ⟨holder, endpoints, hex⟩ := l
  cases kind with
  | engine => exact if_neg h
  | runtime => exact if_neg h
  | endpoint =>
    obtain rfl : endpoints = 0 := Nat.eq_zero_of_not_pos h
    rfl

/-- an attach adds at most the Endpoint that is let in -/
theorem attach_endpoints {l l' : Lease} {kind : HpxAttachKind} (h : l.attach kind = some l') :
    l'.endpoints ≤ l.endpoints ∨
      (kind = .endpoint ∧ l.holder ≠ some .engine ∧ l'.endpoints = l.endpoints + 1) := by
  cases kind with
  | engine =>
    simp only [attach, Option.ite_none_right_eq_some, Option.some.injEq] at h
    rw [← h.2]
    exact Or.inl (Nat.zero_le _)
  | runtime =>
    simp only [attach, Option.ite_none_right_eq_some, Option.some.injEq] at h
    rw [← h.2]
    exact Or.inl Nat.le.refl
  | endpoint =>
    simp only [attach, Option.dite_none_left_eq_some, Option.some.injEq] at h
    obtain ⟨hne, rfl⟩ := h
    exact Or.inr ⟨rfl, hne, rfl⟩

theorem detach_endpoints (l : Lease) (kind : HpxAttachKind) :
    (l.detach kind).endpoints ≤ l.endpoints := by
  cases kind with
  | engine =>
    dsimp only [detach]
    split <;> exact Nat.le_refl _
  | runtime =>
    dsimp only [detach]
    split <;> exact Nat.le_refl _
  | endpoint => exact Nat.sub_le _ _

/-- the counts of a lease fit into their fields -/
theorem stored_owner {l : Lease} {t : Int} (h : l.endpoints < 2 ^ 31) :
    (l.owner t).stored = l.owner t := by
  have hcount : (l.endpoints : Int).bmod (2 ^ 32) = l.endpoints :=
    Int.bmod_eq_of_le (by omega) (by omega)
  have href : (if l.holder.isSome then 1 else 0 : Int).bmod (2 ^ 32) =
      if l.holder.isSome then 1 else 0 := by
    cases l.holder <;> rfl
  rw [Owner.stored, owner]
  dsimp only
  rw [hcount, href]

theorem events_self (l : Lease) (n : Int) : l.events l n = [] := by
  obtain ⟨holder, endpoints, hex⟩ := l
  cases holder <;> rfl

end Lease

/-! ## the policy -/

/-- some Engine or Runtime holds HPX -/
def Owner.owned (o : Owner) : Bool := o.engine || o.runtime

def Owner.attached (o : Owner) : HpxAttachKind → Prop
  | .engine => o.engine = true
  | .runtime => o.runtime = true
  | .endpoint => 0 < o.endpoints

def OwnerCall.threads : OwnerCall → Int
  | .attach _ threads => threads
  | _ => 0

/-- HPX is started when its first holder comes and stopped when its last one goes -/
def transition (o o' : Owner) (threads : Int) : List HpxEvent :=
  if !o.owned && o'.owned then [.started threads]
  else if o.owned && !o'.owned then [.stopped]
  else []

/-- whether HPX is up after the events; `none` if it was started while up or stopped while down -/
def lifecycle : Bool → List HpxEvent → Option Bool
  | up, [] => some up
  | false, .started _ :: es => lifecycle true es
  | true, .stopped :: es => lifecycle false es
  | _, _ :: _ => none

theorem lifecycle_append {up up' : Bool} {es es' : List HpxEvent} (h : lifecycle up es = some up') :
    lifecycle up (es ++ es') = lifecycle up' es' := by
  induction es generalizing up with
  | nil =>
    cases h
    rfl
  | cons ev es ih =>
    cases ev with
    | started threads =>
      cases up with
      | true => cases h
      | false => exact ih h
    | stopped =>
      cases up with
      | true => exact ih h
      | false => cases h

namespace Lease
variable {l l' : Lease} {threads t t' : Int}

theorem owned_owner : (l.owner t).owned = l.holder.isSome := by
  obtain ⟨holder, endpoints, hex⟩ := l
  cases holder with
  | none => rfl
  | some h => cases h <;> rfl

theorem attached_owner (kind : HpxAttachKind) : (l.owner t).attached kind ↔ l.attached kind := by
  cases kind with
  | engine => exact beq_iff_eq
  | runtime => exact beq_iff_eq
  | endpoint => exact Int.natCast_pos

theorem transition_owner : transition (l.owner t) (l'.owner t') threads = l.events l' threads := by
  unfold transition events
  rw [owned_owner, owned_owner]
  cases l.holder <;> cases l'.holder <;> rfl

theorem lifecycle_events : lifecycle l.holder.isSome (l.events l' threads) =
    some l'.holder.isSome := by
  unfold events
  cases l.holder <;> cases l'.holder <;> rfl

end Lease

namespace Process

/-- what holds of the owner between two calls -/
structure Policy (p : Process) : Prop where
  exclusive : p.owner.engine = true → p.owner.runtime = false ∧ p.owner.endpoints = 0
  refcount : p.owner.hpxRefcount =
      (if p.owner.engine then 1 else 0) + (if p.owner.runtime then 1 else 0) ∧
    p.owner.hpxRefcount ≤ 1
  started : p.owner.started = true ↔ p.owner.engine = true ∨ p.owner.runtime = true
  up : lifecycle false p.hpx = some p.owner.owned

/-- what the next call owes -/
structure Obeys (p : Process) : Prop where
  changes : ∀ call hpx p', p.step (call, hpx) = some p' →
    p'.hpx = p.hpx ++ transition p.owner p'.owner call.threads
  throws : ∀ kind n hpx msg, ((attach kind n p.owner).run hpx).1 = .error msg →
    p.step (.attach kind n, hpx) = some p
  stray : ∀ kind hpx, ¬ p.owner.attached kind →
    ((detach kind p.owner).run hpx).1 = .ok .unit ∧ p.step (.detach kind, hpx) = some p

/-- an Endpoint that the policy lets in can be counted -/
def Fits (p : Process) (c : OwnerCall × Except String Bool) : Prop :=
  ∀ n, c.1 = .attach .endpoint n → p.owner.engine = false → p.owner.endpoints < 2 ^ 31 - 1

/-! ## runs in which the count fits -/

/-- the owner is a lease whose endpoints fit into the count -/
structure Leased (p : Process) (l : Lease) (t : Int) : Prop where
  owner : p.owner = l.owner t
  fits : l.endpoints < 2 ^ 31
  up : lifecycle false p.hpx = some l.holder.isSome

/-- **Every call moves the lease, and starts or stops HPX with its holder.**  It adds at most the
Endpoint that is let in. -/
theorem run_call (l : Lease) (t : Int) (call : OwnerCall) (hpx : Except String Bool) :
    ∃ l' t', ((call.body (l.owner t)).run hpx).2 = (Lease.owner l' t', l.events l' call.threads) ∧
      (l'.endpoints ≤ l.endpoints ∨ ((∃ n, call = .attach .endpoint n) ∧
        (l.owner t).engine = false ∧ l'.endpoints = l.endpoints + 1)) := by
  cases call with
  | attach kind n =>
    show ∃ l' t', ((RayX.attach kind n (l.owner t)).run hpx).2 = _ ∧ _
    rcases Lease.attach_run l t kind n hpx with ⟨msg, hr⟩ | ⟨l', t', hl', hr⟩
    · refine ⟨l, t, ?_, Or.inl Nat.le.refl⟩
      rw [hr, Lease.events_self]
    · refine ⟨l', t', ?_, ?_⟩
      · rw [hr]
        rfl
      · rcases Lease.attach_endpoints hl' with hle | ⟨rfl, hne, hadd⟩
        · exact Or.inl hle
        · exact Or.inr ⟨⟨n, rfl⟩, beq_eq_false_iff_ne.mpr hne, hadd⟩
  | detach kind =>
    refine ⟨l.detach kind, t, ?_, Or.inl (Lease.detach_endpoints l kind)⟩
    show ((RayX.detach kind (l.owner t)).run hpx).2 = _
    rw [Lease.detach_run l t kind 0 hpx]
    rfl
  | hpxActive => exact ⟨l, t, by rw [Lease.events_self]; rfl, Or.inl Nat.le.refl⟩
  | endpointCount => exact ⟨l, t, by rw [Lease.events_self]; rfl, Or.inl Nat.le.refl⟩

variable {p p' : Process} {l : Lease} {t : Int}

theorem Leased.keeps (h : p.Leased l t) {c : OwnerCall × Except String Bool} (hf : p.Fits c)
    (hs : p.step c = some p') : ∃ l' t', p'.Leased l' t' := by
  obtain ⟨call, hpx⟩ := c
  obtain ⟨ho, hfits, hup⟩ := h
  obtain ⟨l', t', hr, hgrow⟩ := run_call l t call hpx
  have hl' : l'.endpoints < 2 ^ 31 := by
    rcases hgrow with hle | ⟨⟨n, hn⟩, hengine, hadd⟩
    · omega
    · have hroom := hf n hn (by rw [ho]; exact hengine)
      rw [ho] at hroom
      have hcount : (l.endpoints : Int) < 2 ^ 31 - 1 := hroom
      omega
  have hp' : p' = { owner := ((call.body p.owner).run hpx).2.1.stored
                    hpx := p.hpx ++ ((call.body p.owner).run hpx).2.2 } := (Option.some.inj hs).symm
  rw [ho, hr] at hp'
  refine ⟨l', t', ?_, hl', ?_⟩
  · rw [hp']
    exact Lease.stored_owner hl'
  · rw [hp']
    exact (lifecycle_append hup).trans Lease.lifecycle_events

/-- **Run law.**  As long as the endpoints can be counted, the owner is a lease. -/
theorem leased_run {calls : List (OwnerCall × Except String Bool)}
    (hC : stepsMeet step Fits {} calls) (hr : run step {} calls = some p) : ∃ l t, p.Leased l t := by
  refine run_inv_of (P := fun p => ∃ l t, Leased p l t) ?_ hr hC
    ⟨⟨none, 0, by simp⟩, 0, rfl, by decide, rfl⟩
  rintro p c p' ⟨l, t, h⟩ hf hs
  exact h.keeps hf hs

theorem Leased.policy (h : p.Leased l t) : p.Policy := by
  obtain ⟨ho, _, hl⟩ := h
  constructor
  · rw [ho]
    intro he
    have hh : l.holder = some .engine := beq_iff_eq.mp he
    refine ⟨?_, by rw [Lease.owner, l.exclusive hh]; rfl⟩
    rw [Lease.owner, hh]
    rfl
  · rw [ho, Lease.owner]
    cases l.holder with
    | none => exact ⟨rfl, show (0 : Int) ≤ 1 by decide⟩
    | some hd => cases hd <;> exact ⟨rfl, show (1 : Int) ≤ 1 by decide⟩
  · rw [ho, Lease.owner]
    cases l.holder with
    | none => simp
    | some hd => cases hd <;> simp
  · rw [hl, ho, Lease.owned_owner]

theorem Leased.obeys (h : p.Leased l t) : p.Obeys := by
  obtain ⟨ho, hfits, _⟩ := h
  have hstored : p.owner.stored = p.owner := by rw [ho, Lease.stored_owner hfits]
  -- a call that leaves the owner alone and HPX too is no step
  have hsame : ∀ call hpx, ((call.body p.owner).run hpx).2 = (p.owner, []) →
      p.step (call, hpx) = some p := by
    intro call hpx hr
    show some (Process.mk ((call.body p.owner).run hpx).2.1.stored
      (p.hpx ++ ((call.body p.owner).run hpx).2.2)) = _
    rw [hr, hstored, List.append_nil]
  constructor
  · intro call hpx p' hs
    obtain ⟨l', t', hr, _⟩ := run_call l t call hpx
    rw [← ho] at hr
    have hp' : p' = { owner := ((call.body p.owner).run hpx).2.1.stored
                      hpx := p.hpx ++ ((call.body p.owner).run hpx).2.2 } :=
      (Option.some.inj hs).symm
    rw [hr] at hp'
    have htrans : transition p.owner (l'.owner t').stored call.threads = l.events l' call.threads := by
      rw [ho]
      exact (Lease.transition_owner :
        transition (l.owner t) (l'.owner t') call.threads = l.events l' call.threads)
    rw [hp', htrans]
  · intro kind n hpx msg he
    refine hsame (.attach kind n) hpx ?_
    show ((attach kind n p.owner).run hpx).2 = _
    rw [ho] at he ⊢
    rcases Lease.attach_run l t kind n hpx with ⟨msg', hr⟩ | ⟨l', t', _, hr⟩
    · rw [hr]
    · rw [hr] at he
      cases he
  · intro kind hpx hstray
    have hno : ¬ l.attached kind := by
      rw [ho] at hstray
      exact fun ha => hstray ((Lease.attached_owner kind).mpr ha)
    have hr : (detach kind p.owner).run hpx = (.ok .unit, p.owner, []) := by
      rw [ho, Lease.detach_run _ _ kind 0 hpx, Lease.detach_stray _ kind hno, Lease.events_self]
    refine ⟨?_, hsame (.detach kind) hpx ?_⟩
    · rw [hr]
    · exact congrArg Prod.snd hr

/-! ## past the last value of the count -/

theorem step_endpoint (n : Int) (hpx : Except String Bool) (h : p.owner.engine = false) :
    p.step (.attach .endpoint n, hpx) =
      some { p with owner := { p.owner with endpoints := p.owner.endpoints + 1 }.stored } := by
  have hr : (attach .endpoint n p.owner).run hpx =
      (.ok .unit, { p.owner with endpoints := p.owner.endpoints + 1 }, []) := by
    simp only [attach, h, Bool.false_eq_true, if_false, Critical.run]
  show some (Process.mk ((attach .endpoint n p.owner).run hpx).2.1.stored
    (p.hpx ++ ((attach .endpoint n p.owner).run hpx).2.2)) = _
  rw [hr, List.append_nil]

/-- **One Endpoint too many lets an Engine in.** -/
theorem overflow_admits (h : p.Leased l t) {c : OwnerCall × Except String Bool} (hf : ¬ p.Fits c) :
    ∃ p', run step p [c, (.detach .runtime, .ok true), (.attach .engine 1, .ok true)] = some p' ∧
      ¬ p'.Policy := by
  obtain ⟨ho, hfits, _⟩ := h
  obtain ⟨call, hpx⟩ := c
  obtain ⟨n, rfl, hengine, hlast⟩ : ∃ n, call = .attach .endpoint n ∧ p.owner.engine = false ∧
      ¬ p.owner.endpoints < 2 ^ 31 - 1 := by
    by_contra hno
    exact hf fun n hc he => not_not.mp fun hl => hno ⟨n, hc, he, hl⟩
  have hwrap : (p.owner.endpoints + 1).bmod (2 ^ 32) = -2 ^ 31 := by
    rw [ho] at hlast ⊢
    have hcount : ¬ (l.endpoints : Int) < 2 ^ 31 - 1 := hlast
    have hval : (l.owner t).endpoints = 2 ^ 31 - 1 := by
      show (l.endpoints : Int) = _
      omega
    rw [hval]
    decide
  have hone := step_endpoint n hpx hengine
  rw [Owner.stored] at hone
  dsimp only at hone
  rw [hwrap] at hone
  -- the Runtime that may be there leaves, and the negative count refuses nobody
  have hdown : ∃ p', run step ⟨{ (l.owner t) with
        hpxRefcount := (l.owner t).hpxRefcount.bmod (2 ^ 32)
        endpoints := -2 ^ 31 }, p.hpx⟩
      [(.detach .runtime, .ok true), (.attach .engine 1, .ok true)] = some p' ∧ ¬ p'.Policy := by
    have hleft : ¬ ((-2 ^ 31 : Int).bmod (2 ^ 32)).bmod (2 ^ 32) = 0 := by decide
    rw [ho] at hengine
    obtain ⟨holder, endpoints, hex⟩ := l
    cases holder with
    | none => exact ⟨_, rfl, fun hp => hleft (hp.exclusive rfl).2⟩
    | some hd =>
      cases hd with
      | engine => cases hengine
      | runtime => exact ⟨_, rfl, fun hp => hleft (hp.exclusive rfl).2⟩
  obtain ⟨p', hr, hno⟩ := hdown
  rw [ho] at hone
  exact ⟨p', run_cons.mpr ⟨_, hone, hr⟩, hno⟩

/-- **Policy and refcount of the owner.**  In every state that the calls reach, and from there calls
that attach no Endpoint, the policy holds and the next call obeys it, if and only if no Endpoint is let
in at the last value of the count. -/
theorem owner_policy (calls : List (OwnerCall × Except String Bool)) :
    (∀ before more p, before <+: calls → (∀ c ∈ more, ∀ n, c.1 ≠ .attach .endpoint n) →
      run step {} (before ++ more) = some p → p.Policy ∧ p.Obeys) ↔ stepsMeet step Fits {} calls := by
  constructor
  · intro hall
    induction calls using List.reverseRecOn with
    | nil => trivial
    | append_singleton calls c ih =>
      have hcalls := ih (fun before more p hb => hall before more p (hb.trans (List.prefix_append _ _)))
      refine stepsMeet_append.mpr ⟨hcalls, ?_⟩
      intro p hp
      refine ⟨?_, fun _ _ => trivial⟩
      by_contra hf
      obtain ⟨l, t, h⟩ := leased_run hcalls hp
      obtain ⟨p', hr, hno⟩ := overflow_admits h hf
      refine hno (hall (calls ++ [c]) [(.detach .runtime, .ok true), (.attach .engine 1, .ok true)] p'
        List.prefix_rfl ?_ ?_).1
      · intro d hd n hc
        rcases List.mem_pair.mp hd with rfl | rfl <;> cases hc
      · rw [List.append_assoc]
        exact run_append.mpr ⟨p, hp, hr⟩
  · intro hC before more p hb hmore hr
    obtain ⟨rest, rfl⟩ := hb
    have hboth : stepsMeet step Fits {} (before ++ more) :=
      stepsMeet_append.mpr ⟨(stepsMeet_append.mp hC).1, fun s _ =>
        stepsMeet_of_all (fun c hc s n hn => absurd hn (hmore c hc n))⟩
    obtain ⟨l, t, h⟩ := leased_run hboth hr
    exact ⟨h.policy, h.obeys⟩

/-- `n` Endpoints -/
theorem run_endpoints (n : Nat) :
    run step {} (List.replicate n (.attach .endpoint 0, .ok true)) =
      some { owner := { endpoints := (n : Int).bmod (2 ^ 32) } } := by
  induction n with
  | zero => rfl
  | succ n ih =>
    rw [List.replicate_succ']
    refine run_snoc ih ?_
    rw [step_endpoint _ _ rfl, Owner.stored]
    dsimp only
    rw [Int.bmod_add_bmod]
    rfl

/-- 2^31 Endpoints and then an Engine -/
def overflowRun : List (OwnerCall × Except String Bool) :=
  List.replicate (2 ^ 31) (.attach .endpoint 0, .ok true) ++ [(.attach .engine 1, .ok true)]

/-- an Engine may be let in beside 2^31 Endpoints -/
theorem overflow_shares : ¬ ∀ calls p, run step {} calls = some p → p.Policy := by
  intro hall
  have hr : run step {} overflowRun = some _ := run_snoc (run_endpoints (2 ^ 31)) rfl
  exact absurd ((hall _ _ hr).exclusive rfl).2 (by decide)

end Process

end RayX
