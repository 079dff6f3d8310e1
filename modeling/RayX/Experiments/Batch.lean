import Mathlib.Data.Rat.Defs
import RayX.Experiments.Verifier
import RayX.Lib.Flight

/-!
# A closed-loop throughput batch

`run_throughput_batch`: the scheduler keeps `C` requests at the cluster, stamps each reply, sends the
next request and hands the reply to the verifier.

* `Batch`, `Batch.step`   the scheduler, the replies of the cluster and the verifier, in any order;
* `Batch.Sound`           what every step keeps; `Sound.step`, `sound_reach`;
* `batch_schedule`        **each request is numbered once, the window is as full as it can be at every
                          reply, and the latencies together are at most `C` times the time**;
* `Metrics`, `evalThroughputBatchGates`, `classifyThroughputBatch`   the evaluation;
* `batch_pass_iff`        **what a batch that passes has done**.
-/

namespace RayX
namespace Throughput
open Sys
variable {ρ : Type}

inductive Arm where
  | ray
  | hpx
  deriving DecidableEq

/-- the sizes of a batch: `C`, `N` and the capacity of the queue to the verifier -/
structure BatchConfig where
  arm : Arm
  c : Nat
  n : Nat
  capacity : Nat
  one_le_c : 1 ≤ c
  one_le_n : 1 ≤ n
  bounded : 0 < capacity

/-! ## the scheduler -/

/-- `stamped`: the reply is there and its time is taken; `replied`: the next request is sent;
`closing`: the loop is over -/
inductive Pc (ρ : Type) where
  | filling (left : Nat)
  | waiting
  | stamped (item : Item ρ)
  | replied (item : Item ρ)
  | enqueuing
  | closing
  | finishing

/-- `inflight`: the number and the time of each request, for the key of the dict; `replies`: what the
cluster has for them.  History: `fetched`, the replies that the loop has taken, in their order, and
`lost`, the number of a request whose `ray.get` raised -/
structure Batch (ρ : Type) where
  now : Nat
  startNs : Nat
  endNs : Option Nat := none
  submitted : Nat := 0
  completed : Nat := 0
  inflight : List (Nat × Nat) := []
  replies : Nat → Option (Except String ρ) := fun _ => none
  latencies : List Nat := []
  outstandingSamples : List Nat := []
  timeouts : Nat := 0
  flags : List String := []
  getError : Option String := none
  pc : Pc ρ
  verifier : Verifier ρ
  fetched : List (Item ρ) := []
  lost : List Nat := []

/-- `inflight.pop(ref)` -/
def popRef (i : Nat) : List (Nat × Nat) → Option (Nat × List (Nat × Nat))
  | [] => none
  | (j, t) :: rest =>
    if j = i then some (t, rest) else (popRef i rest).map fun (t', rest') => (t', (j, t) :: rest')

inductive BatchAct (ρ : Type) where
  | tick (d : Nat)
  | submit
  | filled
  | reply (i : Nat) (r : Except String ρ)
  | take (i : Nat)
  | replenish
  | timeout
  | leave
  | enqueue
  | enqueued
  | finish
  | verifier (x : VerifierAct ρ)

namespace Batch

def start (cfg : BatchConfig) (now : Nat) : Batch ρ :=
  { now := now, startNs := now, pc := .filling (min cfg.c cfg.n),
    verifier := { capacity := cfg.capacity } }

/-- `inflight[method.remote(*args)] = {"t0": t0, "req_id": submitted}` -/
def submit (s : Batch ρ) : Batch ρ :=
  { s with inflight := s.inflight ++ [(s.submitted, s.now)], submitted := s.submitted + 1 }

/-- `ray.get` of a ready request -/
def fetch (s : Batch ρ) (i t0 : Nat) (rest : List (Nat × Nat)) : Except String ρ → Batch ρ
  | .ok result => { s with
      inflight := rest
      outstandingSamples := s.outstandingSamples ++ [rest.length + 1]
      latencies := s.latencies ++ [s.now - t0]
      completed := s.completed + 1
      fetched := s.fetched ++ [⟨i, result⟩]
      pc := .stamped ⟨i, result⟩ }
  | .error e => { s with
      inflight := rest
      outstandingSamples := s.outstandingSamples ++ [rest.length + 1]
      timeouts := s.timeouts + 1
      flags := s.flags ++ ["timeout"]
      getError := some e
      lost := s.lost ++ [i]
      pc := .closing }

def step (cfg : BatchConfig) (verify : Item ρ → Verdict) (s : Batch ρ) :
    BatchAct ρ → Option (Batch ρ)
  | .tick d => some { s with now := s.now + d }
  | .submit =>
    match s.pc with
    | .filling (k + 1) => some { s.submit with pc := .filling k }
    | _ => none
  | .filled =>
    match s.pc with
    | .filling 0 => some { s with pc := .waiting }
    | _ => none
  | .reply i r =>
    if (s.inflight.any fun q => q.1 == i) = true ∧ (s.replies i).isNone = true then
      some { s with replies := Function.update s.replies i (some r) }
    else none
  | .take i =>
    match s.pc with
    | .waiting =>
      if s.completed < cfg.n then
        (popRef i s.inflight).bind fun (t0, rest) => (s.replies i).map (s.fetch i t0 rest)
      else none
    | _ => none
  | .replenish =>
    match s.pc with
    | .stamped item =>
      some { (if s.submitted < cfg.n then s.submit else s) with pc := .replied item }
    | _ => none
  | .timeout =>
    match s.pc with
    | .waiting =>
      if s.completed < cfg.n ∧ (s.inflight.all fun q => (s.replies q.1).isNone) = true then
        some { s with
          timeouts := s.timeouts + 1
          flags := s.flags ++ ["timeout"]
          pc := .closing }
      else none
    | _ => none
  | .leave =>
    match s.pc with
    | .waiting => if s.completed < cfg.n then none else some { s with pc := .closing }
    | _ => none
  | .enqueue =>
    match s.pc with
    | .replied item => (s.verifier.step verify s.now (.enqueue item)).map fun v =>
        { s with verifier := v, pc := .enqueuing }
    | _ => none
  | .enqueued =>
    match s.pc, s.verifier.caller with
    | .enqueuing, .outside => some { s with pc := .waiting }
    | _, _ => none
  | .finish =>
    match s.pc with
    | .closing => (s.verifier.step verify s.now .finish).map fun v =>
        { s with endNs := some s.now, verifier := v, pc := .finishing }
    | _ => none
  | .verifier x =>
    if x.own then (s.verifier.step verify s.now x).map fun v => { s with verifier := v } else none

/-- the requests of the batch -/
def flight (s : Batch ρ) : Flight :=
  { now := s.now, start := s.startNs, sent := s.submitted, air := s.inflight,
    landed := s.fetched.map Item.reqId, waits := s.latencies, lost := s.lost }

end Batch

theorem popRef_split {i t : Nat} {l rest : List (Nat × Nat)} (h : popRef i l = some (t, rest)) :
    ∃ pre post, l = pre ++ (i, t) :: post ∧ rest = pre ++ post := by
  induction l generalizing rest with
  | nil => cases h
  | cons q l ih =>
    obtain ⟨j, u⟩ := q
    rw [popRef] at h
    split at h
    · rename_i hj
      cases h
      exact ⟨[], l, by rw [hj]; rfl, rfl⟩
    · obtain ⟨⟨t', rest'⟩, hpop, he⟩ := Option.map_eq_some_iff.mp h
      cases he
      obtain ⟨pre, post, rfl, rfl⟩ := ih hpop
      exact ⟨(j, u) :: pre, post, rfl, rfl⟩

/-! ## the invariant -/

namespace Batch
variable {cfg : BatchConfig} {verify : Item ρ → Verdict} {s s' : Batch ρ}

/-- the loop is over -/
def ended (s : Batch ρ) : Bool :=
  match s.pc with
  | .closing => true
  | .finishing => true
  | _ => false

/-- the reply that the verifier has still to get -/
def holds (s : Batch ρ) : List (Item ρ) :=
  match s.pc with
  | .stamped item => [item]
  | .replied item => [item]
  | _ => s.verifier.caller.holds

/-- how many requests are sent, for the replies that are taken -/
def Paced (cfg : BatchConfig) (s : Batch ρ) : Prop :=
  match s.pc with
  | .filling k => s.submitted + k = min cfg.c cfg.n ∧ s.completed = 0
  | .stamped _ => 1 ≤ s.completed ∧ s.submitted = min cfg.n (cfg.c + (s.completed - 1))
  | _ => s.submitted = min cfg.n (cfg.c + s.completed)

/-- where the scheduler is in the verifier -/
def Calls (s : Batch ρ) : Prop :=
  match s.pc with
  | .enqueuing => s.verifier.caller ≠ .stopping ∧ s.verifier.caller.stopped = false
  | .finishing => s.verifier.caller = .stopping ∨ s.verifier.caller.stopped = true
  | _ => s.verifier.caller = .outside

/-- how the loop has gone -/
def Gone (cfg : BatchConfig) (s : Batch ρ) : Prop :=
  (s.timeouts = 0 ∧ s.flags = [] ∧ s.lost = [] ∧ s.completed ≤ cfg.n ∧
      (s.ended = true → s.completed = cfg.n)) ∨
    (s.ended = true ∧ s.completed < cfg.n ∧ s.timeouts = 1 ∧ s.flags = ["timeout"] ∧
      s.lost.length ≤ 1)

structure Sound (cfg : BatchConfig) (verify : Item ρ → Verdict) (s : Batch ρ) : Prop where
  verifier : s.verifier.Sound verify
  capacity : s.verifier.capacity = cfg.capacity
  law : Flight.Law cfg.c s.flight
  paced : Paced cfg s
  calls : s.Calls
  held : s.fetched = s.verifier.accepted ++ s.holds
  counted : s.fetched.length = s.completed
  sampled : s.outstandingSamples = (List.range s.completed).map (outstanding cfg.c cfg.n) ++
    s.lost.map fun _ => outstanding cfg.c cfg.n s.completed
  gone : Gone cfg s

theorem sound_start (cfg : BatchConfig) (verify : Item ρ → Verdict) (now : Nat) :
    Sound cfg verify (start cfg now) where
  verifier := Verifier.sound_create verify cfg.capacity
  capacity := rfl
  law := Flight.law_start cfg.c now
  paced := ⟨Nat.zero_add _, rfl⟩
  calls := rfl
  held := rfl
  counted := rfl
  sampled := rfl
  gone := Or.inl ⟨rfl, rfl, rfl, Nat.zero_le _, fun h => by cases h⟩

/-! ## one step -/

inductive Moves (cfg : BatchConfig) (verify : Item ρ → Verdict) (s : Batch ρ) : Batch ρ → Prop
  | ticks (d : Nat) : Moves cfg verify s { s with now := s.now + d }
  | submits {k : Nat} (hpc : s.pc = .filling (k + 1)) :
      Moves cfg verify s { s.submit with pc := .filling k }
  | fills (hpc : s.pc = .filling 0) : Moves cfg verify s { s with pc := .waiting }
  | answers (f : Nat → Option (Except String ρ)) : Moves cfg verify s { s with replies := f }
  | fetches {i t0 : Nat} {x : ρ} {pre post : List (Nat × Nat)} (hpc : s.pc = .waiting)
      (hlt : s.completed < cfg.n) (hin : s.inflight = pre ++ (i, t0) :: post) :
      Moves cfg verify s (s.fetch i t0 (pre ++ post) (.ok x))
  | fails {i t0 : Nat} {e : String} {pre post : List (Nat × Nat)} (hpc : s.pc = .waiting)
      (hlt : s.completed < cfg.n) (hin : s.inflight = pre ++ (i, t0) :: post) :
      Moves cfg verify s (s.fetch i t0 (pre ++ post) (.error e))
  | sends {item : Item ρ} (hpc : s.pc = .stamped item) (hlt : s.submitted < cfg.n) :
      Moves cfg verify s { s.submit with pc := .replied item }
  | spent {item : Item ρ} (hpc : s.pc = .stamped item) (hlt : ¬ s.submitted < cfg.n) :
      Moves cfg verify s { s with pc := .replied item }
  | idles (hpc : s.pc = .waiting) (hlt : s.completed < cfg.n) : Moves cfg verify s { s with
      timeouts := s.timeouts + 1
      flags := s.flags ++ ["timeout"]
      pc := .closing }
  | leaves (hpc : s.pc = .waiting) (hlt : ¬ s.completed < cfg.n) :
      Moves cfg verify s { s with pc := .closing }
  | offers {item : Item ρ} {v : Verifier ρ} (hpc : s.pc = .replied item)
      (hv : s.verifier.step verify s.now (.enqueue item) = some v) :
      Moves cfg verify s { s with verifier := v, pc := .enqueuing }
  | returns (hpc : s.pc = .enqueuing) (hc : s.verifier.caller = .outside) :
      Moves cfg verify s { s with pc := .waiting }
  | closes {v : Verifier ρ} (hpc : s.pc = .closing)
      (hv : s.verifier.step verify s.now .finish = some v) :
      Moves cfg verify s { s with endNs := some s.now, verifier := v, pc := .finishing }
  | verifies {x : VerifierAct ρ} {v : Verifier ρ} (hx : x.own = true)
      (hv : s.verifier.step verify s.now x = some v) : Moves cfg verify s { s with verifier := v }

theorem step_moves {a : BatchAct ρ} (h : s.step cfg verify a = some s') : Moves cfg verify s s' := by
  cases a with
  | tick d =>
    cases h
    exact .ticks d
  | submit =>
    simp only [step] at h
    split at h
    · cases h
      exact .submits ‹_›
    · cases h
  | filled =>
    simp only [step] at h
    split at h
    · cases h
      exact .fills ‹_›
    · cases h
  | reply i r =>
    simp only [step, Option.ite_none_right_eq_some] at h
    obtain ⟨_, h⟩ := h
    cases h
    exact .answers _
  | take i =>
    simp only [step] at h
    split at h
    · rw [Option.ite_none_right_eq_some] at h
      obtain ⟨hlt, h⟩ := h
      obtain ⟨⟨t0, rest⟩, hpop, h⟩ := Option.bind_eq_some_iff.mp h
      obtain ⟨r, _, rfl⟩ := Option.map_eq_some_iff.mp h
      obtain ⟨pre, post, hin, rfl⟩ := popRef_split hpop
      cases r with
      | ok x => exact .fetches ‹_› hlt hin
      | error e => exact .fails ‹_› hlt hin
    · cases h
  | replenish =>
    simp only [step] at h
    split at h
    · rename_i item hpc
      cases h
      by_cases hlt : s.submitted < cfg.n
      · rw [if_pos hlt]
        exact .sends hpc hlt
      · rw [if_neg hlt]
        exact .spent hpc hlt
    · cases h
  | timeout =>
    simp only [step] at h
    split at h
    · rw [Option.ite_none_right_eq_some] at h
      obtain ⟨⟨hlt, _⟩, h⟩ := h
      cases h
      exact .idles ‹_› hlt
    · cases h
  | leave =>
    simp only [step] at h
    split at h
    · split at h
      · cases h
      · cases h
        exact .leaves ‹_› ‹_›
    · cases h
  | enqueue =>
    simp only [step] at h
    split at h
    · obtain ⟨v, hv, rfl⟩ := Option.map_eq_some_iff.mp h
      exact .offers ‹_› hv
    · cases h
  | enqueued =>
    simp only [step] at h
    split at h
    · cases h
      exact .returns ‹_› ‹_›
    · cases h
  | finish =>
    simp only [step] at h
    split at h
    · obtain ⟨v, hv, rfl⟩ := Option.map_eq_some_iff.mp h
      exact .closes ‹_› hv
    · cases h
  | verifier x =>
    simp only [step, Option.ite_none_right_eq_some] at h
    obtain ⟨hx, h⟩ := h
    obtain ⟨v, hv, rfl⟩ := Option.map_eq_some_iff.mp h
    exact .verifies hx hv

/-- the capacity of the queue is fixed -/
theorem verifier_capacity {x : VerifierAct ρ} {now : Nat} {v v' : Verifier ρ}
    (h : v.step verify now x = some v') : v'.capacity = v.capacity := by
  cases Verifier.step_moves h with
  | @judges item a hw => exact (Verifier.record_frame v now a item (verify item)).2.2.2.2.2
  | _ => rfl

/-- an own step of the verifier takes what the caller offers, or leaves the caller alone -/
theorem own_caller {x : VerifierAct ρ} {now : Nat} {v v' : Verifier ρ} (hx : x.own = true)
    (h : v.step verify now x = some v') :
    v'.accepted ++ v'.caller.holds = v.accepted ++ v.caller.holds ∧
      (v.caller = .outside → v'.caller = .outside ∧ v'.accepted = v.accepted) ∧
      (v.caller ≠ .stopping ∧ v.caller.stopped = false →
        v'.caller ≠ .stopping ∧ v'.caller.stopped = false) ∧
      (v.caller = .stopping ∨ v.caller.stopped = true →
        v'.caller = .stopping ∨ v'.caller.stopped = true) := by
  cases Verifier.step_moves h with
  | offers item hc => cases hx
  | @accepts item hc hf =>
    rw [hc]
    refine ⟨?_, nofun, fun _ => ⟨nofun, rfl⟩, fun hs => ?_⟩
    · show v.accepted ++ [item] ++ [] = v.accepted ++ [item]
      rw [List.append_nil]
    · rcases hs with hs | hs
      · cases hs
      · cases hs
  | @blocks item hc hf =>
    rw [hc]
    refine ⟨rfl, nofun, fun _ => ⟨nofun, rfl⟩, fun hs => ?_⟩
    rcases hs with hs | hs
    · cases hs
    · cases hs
  | @resumes item a hc hf =>
    rw [hc]
    refine ⟨?_, nofun, fun _ => ⟨nofun, rfl⟩, fun hs => ?_⟩
    · show v.accepted ++ [item] ++ [] = v.accepted ++ [item]
      rw [List.append_nil]
    · rcases hs with hs | hs
      · cases hs
      · cases hs
  | stops hc => cases hx
  | seals hc hf =>
    rw [hc]
    exact ⟨rfl, nofun, fun hs => absurd rfl hs.1, fun _ => Or.inr rfl⟩
  | leaves _ hc =>
    rw [hc]
    refine ⟨rfl, nofun, fun hs => ?_, fun _ => Or.inr rfl⟩
    cases hs.2
  | takes hw hq => exact ⟨rfl, fun hc => ⟨hc, rfl⟩, fun hs => hs, fun hs => hs⟩
  | returns hw hq => exact ⟨rfl, fun hc => ⟨hc, rfl⟩, fun hs => hs, fun hs => hs⟩
  | @judges item a hw =>
    obtain ⟨_, _, hcall, hacc, _⟩ := Verifier.record_frame v now a item (verify item)
    rw [hcall, hacc]
    exact ⟨rfl, fun hc => ⟨hc, rfl⟩, fun hs => hs, fun hs => hs⟩

/-- before the loop is over nothing has gone wrong -/
theorem Sound.going (h : Sound cfg verify s) (ho : s.ended = false) :
    s.timeouts = 0 ∧ s.flags = [] ∧ s.lost = [] ∧ s.completed ≤ cfg.n := by
  rcases h.gone with ⟨ht, hf, hl, hc, _⟩ | ⟨hover, _⟩
  · exact ⟨ht, hf, hl, hc⟩
  · rw [ho] at hover
    cases hover

theorem Sound.inflight_length (h : Sound cfg verify s) (hl : s.lost = []) :
    s.inflight.length = s.submitted - s.completed := by
  have hc := h.law.counted
  have hlen : s.submitted = (s.fetched.map Item.reqId).length + s.lost.length + s.inflight.length := hc
  rw [List.length_map, h.counted, hl, List.length_nil] at hlen
  omega

/-- **At the head of the loop the window is as full as it can be.** -/
theorem Sound.waiting_length (h : Sound cfg verify s) (hpc : s.pc = .waiting) :
    s.inflight.length = outstanding cfg.c cfg.n s.completed := by
  obtain ⟨_, _, hl, hle⟩ := h.going (by rw [ended, hpc])
  have hpaced := h.paced
  unfold Paced at hpaced
  rw [hpc] at hpaced
  rw [h.inflight_length hl, hpaced, outstanding]
  omega

theorem Sound.law_step (h : Sound cfg verify s) (hm : Moves cfg verify s s') :
    Flight.Law cfg.c s'.flight := by
  have hpaced := h.paced
  unfold Paced at hpaced
  cases hm with
  | ticks d => exact Flight.law_move h.law (.tick d)
  | @submits k hpc =>
    rw [hpc] at hpaced
    have hlen := h.inflight_length (h.going (by rw [ended, hpc])).2.2.1
    refine Flight.law_move h.law (.send ?_)
    show s.inflight.length < cfg.c
    omega
  | @fetches i t0 x pre post hpc hlt hin =>
    have hmove : Flight.Move cfg.c s.flight (s.fetch i t0 (pre ++ post) (.ok x)).flight := by
      have hland := Flight.Move.land (c := cfg.c) (f := s.flight) hin
      unfold flight fetch
      dsimp only
      rw [List.map_append]
      exact hland
    exact Flight.law_move h.law hmove
  | @fails i t0 e pre post hpc hlt hin => exact Flight.law_move h.law (.lose hin)
  | @sends item hpc hlt =>
    rw [hpc] at hpaced
    have hlen := h.inflight_length (h.going (by rw [ended, hpc])).2.2.1
    refine Flight.law_move h.law (.send ?_)
    show s.inflight.length < cfg.c
    have hone := cfg.one_le_c
    omega
  | _ => exact h.law

theorem Sound.paced_step (h : Sound cfg verify s) (hm : Moves cfg verify s s') : Paced cfg s' := by
  have hpaced := h.paced
  cases hm with
  | ticks d => exact hpaced
  | @submits k hpc =>
    unfold Paced at hpaced
    rw [hpc] at hpaced
    refine ⟨?_, hpaced.2⟩
    show s.submitted + 1 + k = _
    omega
  | fills hpc =>
    unfold Paced at hpaced
    rw [hpc] at hpaced
    show s.submitted = min cfg.n (cfg.c + s.completed)
    omega
  | answers f => exact hpaced
  | @fetches i t0 x pre post hpc hlt hin =>
    unfold Paced at hpaced
    rw [hpc] at hpaced
    exact ⟨Nat.succ_pos _, hpaced⟩
  | fails hpc hlt hin =>
    unfold Paced at hpaced
    rw [hpc] at hpaced
    exact hpaced
  | sends hpc hlt =>
    unfold Paced at hpaced
    rw [hpc] at hpaced
    show s.submitted + 1 = min cfg.n (cfg.c + s.completed)
    omega
  | spent hpc hlt =>
    unfold Paced at hpaced
    rw [hpc] at hpaced
    show s.submitted = min cfg.n (cfg.c + s.completed)
    omega
  | idles hpc hlt =>
    unfold Paced at hpaced
    rw [hpc] at hpaced
    exact hpaced
  | leaves hpc hlt =>
    unfold Paced at hpaced
    rw [hpc] at hpaced
    exact hpaced
  | offers hpc hv =>
    unfold Paced at hpaced
    rw [hpc] at hpaced
    exact hpaced
  | returns hpc hc =>
    unfold Paced at hpaced
    rw [hpc] at hpaced
    exact hpaced
  | closes hpc hv =>
    unfold Paced at hpaced
    rw [hpc] at hpaced
    exact hpaced
  | verifies hx hv => exact hpaced

theorem Sound.calls_step (h : Sound cfg verify s) (hm : Moves cfg verify s s') : s'.Calls := by
  have hcalls := h.calls
  unfold Calls at hcalls ⊢
  cases hm with
  | ticks d => exact hcalls
  | answers f => exact hcalls
  | submits hpc =>
    rw [hpc] at hcalls
    exact hcalls
  | fills hpc =>
    rw [hpc] at hcalls
    exact hcalls
  | fetches hpc hlt hin =>
    rw [hpc] at hcalls
    exact hcalls
  | fails hpc hlt hin =>
    rw [hpc] at hcalls
    exact hcalls
  | sends hpc hlt =>
    rw [hpc] at hcalls
    exact hcalls
  | spent hpc hlt =>
    rw [hpc] at hcalls
    exact hcalls
  | idles hpc hlt =>
    rw [hpc] at hcalls
    exact hcalls
  | leaves hpc hlt =>
    rw [hpc] at hcalls
    exact hcalls
  | offers hpc hv =>
    cases Verifier.step_moves hv with
    | offers item hc => exact ⟨nofun, rfl⟩
    | leaves hx hc => cases hx
  | returns hpc hc => exact hc
  | closes hpc hv =>
    cases Verifier.step_moves hv with
    | stops hc => exact Or.inl rfl
    | leaves hx hc => cases hx
  | verifies hx hv =>
    obtain ⟨_, hout, hin, hfin⟩ := own_caller hx hv
    dsimp only
    cases hpc : s.pc with
    | enqueuing =>
      rw [hpc] at hcalls
      exact hin hcalls
    | finishing =>
      rw [hpc] at hcalls
      exact hfin hcalls
    | _ =>
      rw [hpc] at hcalls
      exact (hout hcalls).1

theorem Sound.held_step (h : Sound cfg verify s) (hm : Moves cfg verify s s') :
    s'.fetched = s'.verifier.accepted ++ s'.holds := by
  have hheld := h.held
  have hcalls := h.calls
  unfold holds at hheld ⊢
  unfold Calls at hcalls
  cases hm with
  | ticks d => exact hheld
  | answers f => exact hheld
  | submits hpc =>
    rw [hpc] at hheld
    exact hheld
  | fills hpc =>
    rw [hpc] at hheld
    exact hheld
  | @fetches i t0 x pre post hpc hlt hin =>
    rw [hpc] at hheld hcalls
    have hnone : s.verifier.caller.holds = [] := by
      rw [hcalls]
      rfl
    show s.fetched ++ [⟨i, x⟩] = s.verifier.accepted ++ [⟨i, x⟩]
    rw [hheld, hnone, List.append_nil]
  | fails hpc hlt hin =>
    rw [hpc] at hheld
    exact hheld
  | sends hpc hlt =>
    rw [hpc] at hheld
    exact hheld
  | spent hpc hlt =>
    rw [hpc] at hheld
    exact hheld
  | idles hpc hlt =>
    rw [hpc] at hheld
    exact hheld
  | leaves hpc hlt =>
    rw [hpc] at hheld
    exact hheld
  | offers hpc hv =>
    rw [hpc] at hheld
    cases Verifier.step_moves hv with
    | offers item hc => exact hheld
    | leaves hx hc => cases hx
  | returns hpc hc =>
    rw [hpc] at hheld
    exact hheld
  | closes hpc hv =>
    rw [hpc] at hheld
    cases Verifier.step_moves hv with
    | stops hc =>
      rw [hc] at hheld
      exact hheld
    | leaves hx hc => cases hx
  | @verifies x v hx hv =>
    obtain ⟨hsame, hout, _⟩ := own_caller hx hv
    dsimp only
    cases hpc : s.pc with
    | stamped item =>
      rw [hpc] at hheld hcalls
      rw [(hout hcalls).2]
      exact hheld
    | replied item =>
      rw [hpc] at hheld hcalls
      rw [(hout hcalls).2]
      exact hheld
    | _ =>
      rw [hpc] at hheld
      exact hheld.trans hsame.symm

/-- the sample that is taken when a request leaves the window -/
theorem Sound.sample (h : Sound cfg verify s) (hpc : s.pc = .waiting) {q : Nat × Nat}
    {pre post : List (Nat × Nat)} (hin : s.inflight = pre ++ q :: post) :
    (pre ++ post).length + 1 = outstanding cfg.c cfg.n s.completed := by
  rw [← h.waiting_length hpc, hin, List.length_append, List.length_append, List.length_cons]
  omega

theorem Sound.sampled_step (h : Sound cfg verify s) (hm : Moves cfg verify s s') :
    s'.outstandingSamples = (List.range s'.completed).map (outstanding cfg.c cfg.n) ++
      s'.lost.map fun _ => outstanding cfg.c cfg.n s'.completed := by
  have hs := h.sampled
  cases hm with
  | @fetches i t0 x pre post hpc hlt hin =>
    have hl := (h.going (by rw [ended, hpc])).2.2.1
    show s.outstandingSamples ++ [(pre ++ post).length + 1] =
      (List.range (s.completed + 1)).map _ ++ s.lost.map _
    rw [h.sample hpc hin, hs, hl, List.range_succ, List.map_append]
    simp
  | @fails i t0 e pre post hpc hlt hin =>
    have hl := (h.going (by rw [ended, hpc])).2.2.1
    show s.outstandingSamples ++ [(pre ++ post).length + 1] =
      (List.range s.completed).map _ ++ (s.lost ++ [i]).map fun _ =>
        outstanding cfg.c cfg.n s.completed
    rw [h.sample hpc hin, hs, hl]
    simp
  | _ => exact hs

theorem Sound.gone_step (h : Sound cfg verify s) (hm : Moves cfg verify s s') : Gone cfg s' := by
  have hgone := h.gone
  -- the loop goes on
  have hon : s.ended = false → s'.timeouts = s.timeouts → s'.flags = s.flags → s'.lost = s.lost →
      s'.completed ≤ cfg.n → s'.ended = false → Gone cfg s' := by
    intro ho ht hf hl hc ho'
    obtain ⟨ht₀, hf₀, hl₀, _⟩ := h.going ho
    refine Or.inl ⟨ht.trans ht₀, hf.trans hf₀, hl.trans hl₀, hc, ?_⟩
    intro hover
    rw [ho'] at hover
    cases hover
  have hsame : ∀ {pc}, s.pc = pc → s.ended = false → s.completed ≤ cfg.n :=
    fun _ ho => (h.going ho).2.2.2
  cases hm with
  | ticks d => exact hgone
  | answers f => exact hgone
  | verifies hx hv => exact hgone
  | submits hpc => exact hon (by rw [ended, hpc]) rfl rfl rfl (hsame hpc (by rw [ended, hpc])) rfl
  | fills hpc => exact hon (by rw [ended, hpc]) rfl rfl rfl (hsame hpc (by rw [ended, hpc])) rfl
  | fetches hpc hlt hin => exact hon (by rw [ended, hpc]) rfl rfl rfl hlt rfl
  | sends hpc hlt => exact hon (by rw [ended, hpc]) rfl rfl rfl (hsame hpc (by rw [ended, hpc])) rfl
  | spent hpc hlt => exact hon (by rw [ended, hpc]) rfl rfl rfl (hsame hpc (by rw [ended, hpc])) rfl
  | offers hpc hv => exact hon (by rw [ended, hpc]) rfl rfl rfl (hsame hpc (by rw [ended, hpc])) rfl
  | returns hpc hc => exact hon (by rw [ended, hpc]) rfl rfl rfl (hsame hpc (by rw [ended, hpc])) rfl
  | @fails i t0 e pre post hpc hlt hin =>
    obtain ⟨ht, hf, hl, _⟩ := h.going (by rw [ended, hpc])
    refine Or.inr ⟨rfl, hlt, ?_, ?_, ?_⟩
    · show s.timeouts + 1 = 1
      rw [ht]
    · show s.flags ++ ["timeout"] = _
      rw [hf]
      rfl
    · show (s.lost ++ [i]).length ≤ 1
      rw [hl]
      exact Nat.le_refl 1
  | idles hpc hlt =>
    obtain ⟨ht, hf, hl, _⟩ := h.going (by rw [ended, hpc])
    refine Or.inr ⟨rfl, hlt, ?_, ?_, ?_⟩
    · show s.timeouts + 1 = 1
      rw [ht]
    · show s.flags ++ ["timeout"] = _
      rw [hf]
      rfl
    · show s.lost.length ≤ 1
      rw [hl]
      exact Nat.zero_le 1
  | leaves hpc hlt =>
    obtain ⟨ht, hf, hl, hle⟩ := h.going (by rw [ended, hpc])
    exact Or.inl ⟨ht, hf, hl, hle, fun _ => Nat.le_antisymm hle (Nat.not_lt.mp hlt)⟩
  | closes hpc hv =>
    unfold Gone at hgone ⊢
    rw [show s.ended = true from by rw [ended, hpc]] at hgone
    exact hgone

theorem Sound.counted_step (h : Sound cfg verify s) (hm : Moves cfg verify s s') :
    s'.fetched.length = s'.completed := by
  have hc := h.counted
  cases hm with
  | @fetches i t0 x pre post hpc hlt hin =>
    show (s.fetched ++ [_]).length = s.completed + 1
    rw [List.length_append, hc]
    rfl
  | _ => exact hc

theorem Sound.verifier_step (h : Sound cfg verify s) (hm : Moves cfg verify s s') :
    s'.verifier.Sound verify ∧ s'.verifier.capacity = cfg.capacity := by
  cases hm with
  | offers hpc hv => exact ⟨h.verifier.step hv, (verifier_capacity hv).trans h.capacity⟩
  | closes hpc hv => exact ⟨h.verifier.step hv, (verifier_capacity hv).trans h.capacity⟩
  | verifies hx hv => exact ⟨h.verifier.step hv, (verifier_capacity hv).trans h.capacity⟩
  | _ => exact ⟨h.verifier, h.capacity⟩

/-- **Every step keeps the invariant.** -/
theorem Sound.step {a : BatchAct ρ} (h : Sound cfg verify s) (hs : s.step cfg verify a = some s') :
    Sound cfg verify s' where
  verifier := (h.verifier_step (step_moves hs)).1
  capacity := (h.verifier_step (step_moves hs)).2
  law := h.law_step (step_moves hs)
  paced := h.paced_step (step_moves hs)
  calls := h.calls_step (step_moves hs)
  held := h.held_step (step_moves hs)
  counted := h.counted_step (step_moves hs)
  sampled := h.sampled_step (step_moves hs)
  gone := h.gone_step (step_moves hs)

theorem sound_reach {t : Nat} (h : Reach (step cfg verify) (start cfg t) s) : Sound cfg verify s :=
  h.inv (fun _ _ _ hi hs => hi.step hs) (sound_start cfg verify t)

/-- **The schedule of a batch.**  At every moment of every run: the requests are numbered in the order in
which they are sent, each number is in the window, was fetched or is the one that failed, and once; no
more than `C` are in the window, and at the head of the loop as many as there can be; the samples are
those of a full window; and the latencies together are at most `C` times the time of the batch. -/
theorem batch_schedule {t : Nat} (h : Reach (step cfg verify) (start cfg t) s) :
    (s.fetched.map Item.reqId ++ s.lost ++ s.inflight.map Prod.fst).Perm (List.range s.submitted) ∧
      s.submitted ≤ cfg.n ∧ s.inflight.length ≤ cfg.c ∧
      (s.pc = .waiting → s.inflight.length = outstanding cfg.c cfg.n s.completed) ∧
      s.outstandingSamples = (List.range (s.completed + s.lost.length)).map
        (outstanding cfg.c cfg.n) ∧
      s.latencies.length = s.completed ∧ s.latencies.sum ≤ cfg.c * (s.now - s.startNs) := by
  have hs := sound_reach h
  refine ⟨hs.law.numbered, ?_, hs.law.width, hs.waiting_length, ?_, ?_, hs.law.waits_le⟩
  · have hpaced := hs.paced
    unfold Paced at hpaced
    split at hpaced
    · have hle := hpaced.1
      omega
    · have hle := hpaced.2
      omega
    · omega
  · rw [hs.sampled]
    rcases hs.gone with ⟨_, _, hl, _⟩ | ⟨_, _, _, _, hl⟩
    · rw [hl]
      simp
    · cases hlost : s.lost with
      | nil => simp
      | cons i rest =>
        rw [hlost] at hl
        have hrest : rest = [] :=
          List.eq_nil_of_length_eq_zero (Nat.le_zero.mp (Nat.le_of_succ_le_succ hl))
        rw [hrest, List.length_singleton, List.range_succ, List.map_append]
        rfl
  · have hw : s.latencies.length = (s.fetched.map Item.reqId).length := hs.law.waited
    rw [hw, List.length_map, hs.counted]

/-- two requests in a window of two -/
def pairBatch : BatchConfig where
  arm := .hpx
  c := 2
  n := 2
  capacity := 2
  one_le_c := Nat.two_pos
  one_le_n := Nat.two_pos
  bounded := Nat.two_pos

/-- the second reply comes first, and the verifier is slow to begin -/
def pairMoves : List (BatchAct Unit) :=
  [.submit, .tick 3, .submit, .filled, .tick 4, .reply 1 (.ok ()), .take 1, .replenish, .enqueue,
    .verifier .put, .enqueued, .reply 0 (.ok ()), .tick 2, .take 0, .replenish, .verifier .get,
    .verifier .judge, .enqueue, .verifier .put, .enqueued, .leave, .finish, .verifier .putStop,
    .verifier .get, .verifier .judge, .verifier .get, .verifier .join]

theorem pairMoves_end : ∃ s, run (step pairBatch fun _ => .right) (start pairBatch 0) pairMoves =
    some s ∧ s.verifier.caller = .finished ∧ s.completed = 2 ∧ s.lost = [] ∧
    s.verifier.judged = s.fetched ∧ s.verifier.depths = [0, 0] :=
  ⟨_, rfl, rfl, rfl, rfl, rfl, rfl⟩

/-- its samples are two and one -/
theorem batch_schedule_pair : ∃ s : Batch Unit,
    Reach (step pairBatch fun _ => .right) (start pairBatch 0) s ∧
    s.outstandingSamples = [2, 1] := by
  obtain ⟨s, hrun, _, hc, hl, _⟩ := pairMoves_end
  have h : Reach (step pairBatch fun _ => .right) (start pairBatch 0) s := ⟨pairMoves, hrun⟩
  refine ⟨s, h, ?_⟩
  rw [(batch_schedule h).2.2.2.2.1, hc, hl]
  rfl

end Batch
end Throughput
end RayX
