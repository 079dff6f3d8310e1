import RayX.Experiments.Evaluation

/-!
# The concurrency soak

`concurrency_soak`: a closed loop that checks each reply before it sends the next request, and
`eval_soak_gates` over what the actors report after it.

* `Turn`, `soakLoop`   the loop, for what each `ray.wait` and `ray.get` gives;
* `Checked`, `soakLoop_start`   a loop ends with nothing bad exactly when its turns bring right replies;
* `evalSoakGates`      the pass flag and the class, from different conditions;
* `Serviced`           what the actors report of a soak that passes;
* `soak_class_iff`     **the class of a soak is `pass` exactly when its flag is set.**
-/

namespace RayX
namespace Throughput
open Sys
variable {ρ : Type}

/-! ## the loop -/

/-- what the cluster does for one turn of the loop -/
inductive Turn (ρ : Type) where
  | idle
  | ready (reply : Except String ρ)

/-- what `bad` says: `timeout`, `get:..` or `verify:..` -/
inductive Fault where
  | timeout
  | get (e : String)
  | verify (reasons : List String)

/-- `inflight`: the size of the dict -/
structure Soak where
  submitted : Nat
  completed : Nat := 0
  inflight : Nat
  bad : List Fault := []

/-- `max(4 * C, 20)` -/
def soakSize (c : Nat) : Nat := max (4 * c) 20

def Soak.start (c n : Nat) : Soak := { submitted := min c n, inflight := min c n }

/-- an exception of the check is not caught -/
def soakLoop (n : Nat) (verify : ρ → Verdict) (s : Soak) :
    List (Turn ρ) → Option (Except String Soak)
  | [] => if s.completed < n then none else some (.ok s)
  | t :: turns =>
    if s.completed < n then
      match t with
      | .idle => some (.ok { s with bad := s.bad ++ [.timeout] })
      | .ready (.error e) =>
        some (.ok { s with inflight := s.inflight - 1, bad := s.bad ++ [.get e] })
      | .ready (.ok x) =>
        match verify x with
        | .raised e => some (.error e)
        | .wrong reasons => some (.ok { s with
            inflight := s.inflight - 1
            completed := s.completed + 1
            bad := s.bad ++ [.verify reasons] })
        | .right =>
          if s.submitted < n then
            soakLoop n verify
              { s with submitted := s.submitted + 1, completed := s.completed + 1 } turns
          else
            soakLoop n verify
              { s with inflight := s.inflight - 1, completed := s.completed + 1 } turns
    else some (.ok s)

/-! ## the evaluation -/

/-- what `active_witness` of an actor reports; no field when it did not answer -/
structure ActiveWitness where
  coordinateActiveMax : Option Int := none
  rayPeerActiveMax : Option Int := none
  hpxActionActiveMax : Option Int := none
  coordinateActiveCurrent : Option Int := none
  rayPeerActiveCurrent : Option Int := none
  hpxActionActiveCurrent : Option Int := none
  activeUnderflowSeen : Option Bool := none

inductive SoakClass where
  | pass
  | concurrencySoakFailed
  | reentrancyUnsafe
  | activeCallCounterUnderflow
  | activeCallCounterLeak
  | coordinatorServiceSerialized
  | rayPeerConcurrencyCapabilityNotProven
  | hpxPeerConcurrencyCapabilityNotProven
  deriving DecidableEq

/-- `CAPABILITY_CASE` and `CAPABILITY_CONCURRENCY` -/
def capabilityRegime (caseName : String) (c : Nat) : Bool := decide (caseName = "P3b" ∧ 4 ≤ c)

structure SoakResult where
  arm : Arm
  c : Nat
  caseName : String
  completed : Nat
  bad : List Fault
  pass : Bool
  failureClass : SoakClass
  peerOverlapObserved : Bool
  capabilityRegime : Bool
  capabilityProven : Option Bool

/-- no call of the actor is active; the native witness may be missing -/
def ActiveWitness.settled (w : ActiveWitness) : Bool :=
  w.coordinateActiveCurrent == some 0 && w.rayPeerActiveCurrent == some 0 &&
    (w.hpxActionActiveCurrent == some 0 || w.hpxActionActiveCurrent == none)

/-- the conditions of a soak, in the order of its classes -/
structure SoakGates where
  bad : Bool
  stable : Bool
  underflow : Bool
  currents : Bool
  coordOverlap : Bool
  peerOverlap : Bool
  regime : Bool

def soakGates (arm : Arm) (caseName : String) (c : Nat) (bad : List Fault)
    (awC awP : ActiveWitness) (memberC memberP : Option Int) : SoakGates where
  bad := !bad.isEmpty
  stable := memberC == some 3 && memberP == some 3
  underflow := awC.activeUnderflowSeen.getD false || awP.activeUnderflowSeen.getD false
  currents := awC.settled && awP.settled
  coordOverlap := decide (2 ≤ awC.coordinateActiveMax.getD 0)
  peerOverlap := match arm with
    | .ray => decide (2 ≤ awP.rayPeerActiveMax.getD 0)
    | .hpx => decide (2 ≤ awP.hpxActionActiveMax.getD 0)
  regime := RayX.Throughput.capabilityRegime caseName c

/-- the flag counts the replies, the class does not -/
def SoakGates.ok (g : SoakGates) (completed n : Nat) : Bool :=
  !g.bad && completed == n && g.coordOverlap && (g.peerOverlap || !g.regime) && g.currents &&
    !g.underflow && g.stable

def SoakGates.cls (g : SoakGates) (arm : Arm) : SoakClass :=
  if g.bad then .concurrencySoakFailed
  else if !g.stable then .reentrancyUnsafe
  else if g.underflow then .activeCallCounterUnderflow
  else if !g.currents then .activeCallCounterLeak
  else if !g.coordOverlap then .coordinatorServiceSerialized
  else if g.regime && !g.peerOverlap then
    match arm with
    | .ray => .rayPeerConcurrencyCapabilityNotProven
    | .hpx => .hpxPeerConcurrencyCapabilityNotProven
  else .pass

def evalSoakGates (arm : Arm) (caseName : String) (c completed n : Nat) (bad : List Fault)
    (awC awP : ActiveWitness) (memberC memberP : Option Int) : SoakResult :=
  let g := soakGates arm caseName c bad awC awP memberC memberP
  { arm, c, caseName, completed, bad
    pass := g.ok completed n
    failureClass := if g.ok completed n then .pass else g.cls arm
    peerOverlapObserved := g.peerOverlap
    capabilityRegime := g.regime
    capabilityProven := if g.regime then some g.peerOverlap else none }

/-- the soak of an arm; `none`: the loop waits for more turns -/
def concurrencySoak (arm : Arm) (caseName : String) (c : Nat) (verify : ρ → Verdict)
    (turns : List (Turn ρ)) (awC awP : ActiveWitness) (memberC memberP : Option Int) :
    Option (Except String SoakResult) :=
  (soakLoop (soakSize c) verify (.start c (soakSize c)) turns).map fun r => r.map fun s =>
    evalSoakGates arm caseName c s.completed (soakSize c) s.bad awC awP memberC memberP

/-! ## what the loop has done -/

variable {n : Nat} {verify : ρ → Verdict} {s s' : Soak} {turns : List (Turn ρ)}

/-- the first `m` turns bring replies, and each is right -/
def Checked (m : Nat) (verify : ρ → Verdict) (turns : List (Turn ρ)) : Prop :=
  ∃ xs : List ρ, xs.length = m ∧ xs.map (fun x => Turn.ready (.ok x)) <+: turns ∧
    ∀ x ∈ xs, verify x = .right

theorem checked_zero (verify : ρ → Verdict) (turns : List (Turn ρ)) : Checked 0 verify turns :=
  ⟨[], rfl, List.nil_prefix, fun _ h => absurd h List.not_mem_nil⟩

theorem checked_succ {m : Nat} {x : ρ} : Checked (m + 1) verify (.ready (.ok x) :: turns) ↔
    verify x = .right ∧ Checked m verify turns := by
  constructor
  · rintro ⟨xs, hlen, hpre, hall⟩
    cases xs with
    | nil => cases hlen
    | cons y xs =>
      obtain ⟨hy, hrest⟩ := List.cons_prefix_cons.mp hpre
      cases hy
      exact ⟨hall x List.mem_cons_self, xs, Nat.succ_inj.mp hlen, hrest,
        fun z hz => hall z (List.mem_cons_of_mem x hz)⟩
  · rintro ⟨hx, xs, hlen, hpre, hall⟩
    refine ⟨x :: xs, congrArg Nat.succ hlen, List.cons_prefix_cons.mpr ⟨rfl, hpre⟩, ?_⟩
    intro y hy
    rcases List.mem_cons.mp hy with rfl | hy
    · exact hx
    · exact hall y hy

/-- the loop has ended: with nothing bad it took a right reply in each of its turns and has them all,
otherwise one thing is bad -/
structure Soaked (n : Nat) (verify : ρ → Verdict) (s s' : Soak) (turns : List (Turn ρ)) : Prop where
  bad : s'.bad = s.bad ∨ ∃ b, s'.bad = s.bad ++ [b]
  full : s'.bad = s.bad → s'.completed = n ∧ Checked (n - s.completed) verify turns

theorem append_ne_self {α : Type} {l : List α} {a : α} : l ++ [a] ≠ l := by
  intro h
  have hlen := congrArg List.length h
  rw [List.length_append, List.length_singleton] at hlen
  omega

/-- the loop breaks -/
theorem Soaked.stop {b : Fault} (h : s'.bad = s.bad ++ [b]) : Soaked n verify s s' turns where
  bad := Or.inr ⟨b, h⟩
  full := fun he => absurd (h.symm.trans he) append_ne_self

/-- the loop has all replies -/
theorem Soaked.done (hle : s.completed ≤ n) (h : ¬ s.completed < n) :
    Soaked n verify s s turns where
  bad := Or.inl rfl
  full := fun _ => by
    have hn : s.completed = n := by omega
    refine ⟨hn, ?_⟩
    rw [hn, Nat.sub_self]
    exact checked_zero verify turns

/-- one right reply more, whether or not a request is left to be sent -/
theorem Soaked.cons {s₁ : Soak} {x : ρ} (hv : verify x = .right) (hlt : s.completed < n)
    (hc : s₁.completed = s.completed + 1) (hb : s₁.bad = s.bad) (h : Soaked n verify s₁ s' turns) :
    Soaked n verify s s' (.ready (.ok x) :: turns) := by
  have hbad := h.bad
  have hfull := h.full
  rw [hb] at hbad hfull
  refine ⟨hbad, fun he => ?_⟩
  obtain ⟨hn, hchk⟩ := hfull he
  have hm : n - s.completed = (n - s₁.completed) + 1 := by omega
  refine ⟨hn, ?_⟩
  rw [hm]
  exact checked_succ.mpr ⟨hv, hchk⟩

theorem soakLoop_soaked (hle : s.completed ≤ n) (h : soakLoop n verify s turns = some (.ok s')) :
    Soaked n verify s s' turns := by
  induction turns generalizing s with
  | nil =>
    unfold soakLoop at h
    split at h
    · cases h
    · cases h
      exact .done hle ‹_›
  | cons t turns ih =>
    unfold soakLoop at h
    split at h
    · rename_i hlt
      cases t with
      | idle =>
        cases h
        exact .stop rfl
      | ready reply =>
        cases reply with
        | error e =>
          cases h
          exact .stop rfl
        | ok x =>
          dsimp only at h
          cases hv : verify x with
          | raised e =>
            rw [hv] at h
            cases h
          | wrong reasons =>
            rw [hv] at h
            cases h
            exact .stop rfl
          | right =>
            rw [hv] at h
            dsimp only at h
            split at h
            · refine .cons hv hlt ?_ ?_ (ih (Nat.succ_le_of_lt hlt) h)
              · rfl
              · rfl
            · refine .cons hv hlt ?_ ?_ (ih (Nat.succ_le_of_lt hlt) h)
              · rfl
              · rfl
    · cases h
      exact .done hle ‹_›

/-- a loop whose turns are all right ends with nothing bad -/
theorem soakLoop_right (hle : s.completed ≤ n) (hc : Checked (n - s.completed) verify turns) :
    ∃ s', soakLoop n verify s turns = some (.ok s') ∧ s'.bad = s.bad := by
  induction turns generalizing s with
  | nil =>
    have hge : ¬ s.completed < n := by
      obtain ⟨xs, hlen, hpre, _⟩ := hc
      have hnil := List.prefix_nil.mp hpre
      rw [List.map_eq_nil_iff] at hnil
      rw [hnil, List.length_nil] at hlen
      omega
    unfold soakLoop
    rw [if_neg hge]
    exact ⟨s, rfl, rfl⟩
  | cons t turns ih =>
    unfold soakLoop
    by_cases hlt : s.completed < n
    · have hm : n - s.completed = (n - (s.completed + 1)) + 1 := by omega
      rw [hm] at hc
      obtain ⟨x, rfl⟩ : ∃ x, t = .ready (.ok x) := by
        obtain ⟨xs, hlen, hpre, _⟩ := hc
        cases xs with
        | nil => cases hlen
        | cons x xs => exact ⟨x, (List.cons_prefix_cons.mp hpre).1.symm⟩
      obtain ⟨hv, hrest⟩ := checked_succ.mp hc
      rw [if_pos hlt]
      dsimp only
      rw [hv]
      dsimp only
      split
      · exact ih (s := { s with submitted := s.submitted + 1, completed := s.completed + 1 })
          (Nat.succ_le_of_lt hlt) hrest
      · exact ih (s := { s with inflight := s.inflight - 1, completed := s.completed + 1 })
          (Nat.succ_le_of_lt hlt) hrest
    · rw [if_neg hlt]
      exact ⟨s, rfl, rfl⟩

/-- **A loop that ends with nothing bad is one whose turns are all right.** -/
theorem soakLoop_start (c : Nat) (h : soakLoop n verify (.start c n) turns = some (.ok s')) :
    (s'.bad = [] ↔ Checked n verify turns) ∧ (s'.bad = [] → s'.completed = n) := by
  have hs := soakLoop_soaked (Nat.zero_le n) h
  refine ⟨⟨fun hb => (hs.full hb).2, fun hc => ?_⟩, fun hb => (hs.full hb).1⟩
  obtain ⟨s'', hs'', hbad⟩ := soakLoop_right (s := .start c n) (Nat.zero_le n) hc
  rw [h] at hs''
  cases hs''
  exact hbad

/-! ## the class -/

variable {arm : Arm} {caseName : String} {c : Nat} {awC awP : ActiveWitness}
  {memberC memberP : Option Int} {r : SoakResult}

/-- with all replies there the class is `pass` when the flag is set -/
theorem SoakGates.ok_iff {g : SoakGates} {completed : Nat} (arm : Arm)
    (hn : g.bad = false → completed = n) :
    g.ok completed n = true ↔ g.cls arm = .pass := by
  obtain ⟨bad, stable, underflow, currents, coordOverlap, peerOverlap, regime⟩ := g
  cases bad with
  | true => simp [SoakGates.ok, SoakGates.cls]
  | false =>
    have hn' : completed = n := hn rfl
    subst hn'
    cases stable <;> cases underflow <;> cases currents <;> cases coordOverlap <;>
      simp [SoakGates.ok, SoakGates.cls]
    cases arm <;> cases peerOverlap <;> cases regime <;> simp

/-- what the actors report of a soak that passes -/
structure Serviced (arm : Arm) (caseName : String) (c : Nat) (awC awP : ActiveWitness)
    (memberC memberP : Option Int) : Prop where
  overlap : 2 ≤ awC.coordinateActiveMax.getD 0
  capable : capabilityRegime caseName c = true →
    (soakGates arm caseName c [] awC awP memberC memberP).peerOverlap = true
  settled : awC.settled = true ∧ awP.settled = true
  underflow : awC.activeUnderflowSeen ≠ some true ∧ awP.activeUnderflowSeen ≠ some true
  stable : memberC = some 3 ∧ memberP = some 3

theorem soakGates_ok_iff {completed : Nat} {bad : List Fault} (hn : bad = [] → completed = n) :
    (soakGates arm caseName c bad awC awP memberC memberP).ok completed n = true ↔
      bad = [] ∧ Serviced arm caseName c awC awP memberC memberP := by
  have hpeer : (soakGates arm caseName c bad awC awP memberC memberP).peerOverlap =
      (soakGates arm caseName c [] awC awP memberC memberP).peerOverlap := rfl
  unfold SoakGates.ok
  rw [hpeer]
  simp only [soakGates, Bool.and_eq_true, Bool.or_eq_true, Bool.not_eq_true', Bool.or_eq_false_iff,
    Bool.not_eq_false', List.isEmpty_iff, beq_iff_eq, decide_eq_true_iff, getD_false_iff]
  constructor
  · rintro ⟨⟨⟨⟨⟨⟨hb, _⟩, ho⟩, hp⟩, hc⟩, hu⟩, hst⟩
    refine ⟨hb, ho, fun hreg => ?_, hc, hu, hst⟩
    rcases hp with hp | hp
    · exact hp
    · rw [hreg] at hp
      cases hp
  · rintro ⟨hb, hs⟩
    refine ⟨⟨⟨⟨⟨⟨hb, hn hb⟩, hs.overlap⟩, ?_⟩, hs.settled⟩, hs.underflow⟩, hs.stable⟩
    cases hreg : capabilityRegime caseName c with
    | true => exact Or.inl (hs.capable hreg)
    | false => exact Or.inr rfl

/-- **The class and the flag of a soak agree.**  The evaluation counts the replies for the flag only; of
every soak that has ended, whatever the cluster did, the class is `pass` exactly when the flag is set:
when each request came back with a right reply, in time, and the actors report a clean and overlapping
service, at both actors where the soak is to prove the capability. -/
theorem soak_class_iff (h : concurrencySoak arm caseName c verify turns awC awP memberC memberP =
    some (.ok r)) :
    (r.failureClass = .pass ↔ r.pass = true) ∧
      (r.pass = true ↔ Checked (soakSize c) verify turns ∧
        Serviced arm caseName c awC awP memberC memberP) := by
  obtain ⟨e, hloop, he⟩ := Option.map_eq_some_iff.mp h
  cases e with
  | error t => cases he
  | ok s =>
    cases he
    obtain ⟨hbad, hfull⟩ := soakLoop_start c hloop
    have hn : (soakGates arm caseName c s.bad awC awP memberC memberP).bad = false →
        s.completed = soakSize c := by
      intro hb
      refine hfull ?_
      have hempty : (!s.bad.isEmpty) = false := hb
      rwa [Bool.not_eq_false', List.isEmpty_iff] at hempty
    have hok := SoakGates.ok_iff arm hn
    refine ⟨?_, ?_⟩
    · show (if (soakGates arm caseName c s.bad awC awP memberC memberP).ok s.completed (soakSize c) = true
        then SoakClass.pass else _) = _ ↔ _
      split
      · rename_i hp
        exact ⟨fun _ => hp, fun _ => rfl⟩
      · exact hok.symm
    · show (soakGates arm caseName c s.bad awC awP memberC memberP).ok s.completed (soakSize c) = true ↔ _
      rw [soakGates_ok_iff hfull, hbad]

/-- a soak of which the first reply is wrong -/
theorem soak_class_wrong : ∃ r, concurrencySoak .ray "P3b" 4 (fun _ : Unit => .wrong ["oracle_mismatch"])
    [.ready (.ok ())] {} {} (some 3) (some 3) = some (.ok r) ∧ r.failureClass ≠ .pass := by
  have hrun : ∃ r, concurrencySoak .ray "P3b" 4 (fun _ : Unit => .wrong ["oracle_mismatch"])
      [.ready (.ok ())] {} {} (some 3) (some 3) = some (.ok r) ∧ r.pass = false := ⟨_, rfl, rfl⟩
  obtain ⟨r, hrun, hp⟩ := hrun
  refine ⟨r, hrun, fun hc => ?_⟩
  have hpass := (soak_class_iff hrun).1.mp hc
  rw [hp] at hpass
  cases hpass

end Throughput
end RayX
