import Mathlib.Data.List.Nodup
import Mathlib.Data.List.Perm.Basic
import RayX.Lib.Turns

/-!
# The windowed client loop

What the drivers of the benchmark have in common: fill the window, wait until something can be
retired, retire it, refill; clients share the lanes and their round-robin counter.

* `Client`, `Loop`        how a driver submits an index, and its bounds and its way to retire;
* `Party`, `Party.move`   one client thread, and its next action at a time;
* `loop_progress`         no client waits for ever;
* `Party.Sound`, `Whole`  what each client and all together keep;
* `loops_complete`        **under every fair schedule the loops end, each index was submitted once and
                          each submission was retired once**;
* `fits_move`             a client never holds more than its window.
-/

namespace RayX
namespace Bench
open Sys

/-! ## requests -/

structure Request where
  requestId : String
  serviceMs : Float

structure Submission where
  idx : Nat
  request : Request
  lane : Nat

/-- the round-robin counter, and every submission so far -/
structure World where
  rr : Nat
  log : List Submission := []

/-- whether a future is ready at a time; futures are numbered in the order of submission -/
abbrev Completion := Nat → Nat → Bool

/-- a ready future stays ready, and each is ready at some time -/
structure Completion.Fair (ready : Completion) : Prop where
  stays : ∀ {t t' a}, t ≤ t' → ready t a = true → ready t' a = true
  eventually : ∀ a, ∃ t, ready t a = true

/-- what a driver sends for an index, and what it keeps of a request in flight -/
structure Client (E : Type) where
  request : Nat → Request
  entry : Nat → Nat → E
  token : E → Nat
  token_entry : ∀ i n, token (entry i n) = n

/-! ## loops -/

/-- readiness of the entry that is probed as number `i` -/
abbrev Probe (E : Type) := Nat → E → Bool

/-- one loop: the indices `index next .. index (stop - 1)`, the window, and which requests in flight
are retired next; `none` while it waits -/
structure Loop {E : Type} (cl : Client E) where
  index : Nat → Nat
  first : Nat
  stop : Nat
  window : Option Nat
  record : Bool
  retire : Probe E → List E → Option (List E × List E)
  window_pos : ∀ n, window = some n → 0 < n
  retire_length : ∀ {f l r}, retire f l = some r → r.1.length + r.2.length ≤ l.length
  retire_perm : ∀ {f l r}, (l.map cl.token).Nodup → retire f l = some r → (r.1 ++ r.2).Perm l
  retire_pos : ∀ {f l r}, (∀ i j e, i ≤ j → f i e = true → f j e = true) → l ≠ [] →
    retire f l = some r → 0 < r.1.length
  retire_some : ∀ {f l}, l ≠ [] → (∀ i, ∀ e ∈ l, f i e = true) → retire f l ≠ none

inductive Phase where
  | filling
  | waiting
  | refilling (j : Nat)
  | returned

/-- a client thread in its loop; `results` is what it has recorded -/
structure Party {E : Type} (cl : Client E) where
  loop : Loop cl
  next : Nat
  inflight : List E := []
  results : List E := []
  phase : Phase := .filling

section
variable {E : Type} {cl : Client E}

def Party.start (lp : Loop cl) : Party cl := { loop := lp, next := lp.first }

/-- the window has room -/
def Loop.room (lp : Loop cl) (inflight : List E) : Bool :=
  match lp.window with
  | none => true
  | some n => decide (inflight.length < n)

/-- one submission, to the next lane in turn -/
def Party.submit (lanes : Nat) (p : Party cl) (phase : Phase) (w : World) : Party cl × World :=
  let i := p.loop.index p.next
  ({ p with
      next := p.next + 1, inflight := p.inflight ++ [cl.entry i w.log.length], phase := phase },
    { rr := w.rr + 1
      log := w.log ++ [{ idx := i, request := cl.request i, lane := w.rr % lanes }] })

def Party.move (lanes : Nat) (ready : Completion) : Turns.Move (Party cl) World := fun t p w =>
  match p.phase with
  | .filling =>
    if p.next < p.loop.stop ∧ p.loop.room p.inflight = true then some (p.submit lanes .filling w)
    else some ({ p with phase := .waiting }, w)
  | .waiting =>
    if p.inflight.isEmpty = true then some ({ p with phase := .returned }, w)
    else
      match p.loop.retire (fun i e => ready (t + i) (cl.token e)) p.inflight with
      | none => none
      | some r => some ({ p with
          inflight := r.2
          results := if p.loop.record then p.results ++ r.1 else p.results
          phase := .refilling r.1.length }, w)
  | .refilling j =>
    if 0 < j ∧ p.next < p.loop.stop then some (p.submit lanes (.refilling (j - 1)) w)
    else some ({ p with phase := .waiting }, w)
  | .returned => none

/-- the indices that are still to be submitted -/
def Party.todo (p : Party cl) : List Nat :=
  (List.range' p.next (p.loop.stop - p.next)).map p.loop.index

def Loop.indices (lp : Loop cl) : List Nat :=
  (List.range' lp.first (lp.stop - lp.first)).map lp.index

/-! ## what one action does -/

/-- the actions of a client -/
inductive Moves (lanes : Nat) (ready : Completion) (t : Nat) (p : Party cl) (w : World) :
    Party cl → World → Prop
  | submit (hroom : p.phase = .filling) (hlt : p.next < p.loop.stop)
      (hw : p.loop.room p.inflight = true) :
      Moves lanes ready t p w (p.submit lanes .filling w).1 (p.submit lanes .filling w).2
  | full (hroom : p.phase = .filling)
      (hno : ¬ (p.next < p.loop.stop ∧ p.loop.room p.inflight = true)) :
      Moves lanes ready t p w { p with phase := .waiting } w
  | leave (hwait : p.phase = .waiting) (hnil : p.inflight = []) :
      Moves lanes ready t p w { p with phase := .returned } w
  | retire (hwait : p.phase = .waiting) (hne : p.inflight ≠ []) {r : List E × List E}
      (hr : p.loop.retire (fun i e => ready (t + i) (cl.token e)) p.inflight = some r) :
      Moves lanes ready t p w { p with
        inflight := r.2
        results := if p.loop.record then p.results ++ r.1 else p.results
        phase := .refilling r.1.length } w
  | refill {j : Nat} (hj : p.phase = .refilling (j + 1)) (hlt : p.next < p.loop.stop) :
      Moves lanes ready t p w (p.submit lanes (.refilling j) w).1
        (p.submit lanes (.refilling j) w).2
  | refilled {j : Nat} (hj : p.phase = .refilling j) (hno : ¬ (0 < j ∧ p.next < p.loop.stop)) :
      Moves lanes ready t p w { p with phase := .waiting } w

variable {lanes : Nat} {ready : Completion} {t : Nat} {p p' : Party cl} {w w' : World}

theorem move_cases (h : Party.move lanes ready t p w = some (p', w')) :
    Moves lanes ready t p w p' w' := by
  unfold Party.move at h
  cases hphase : p.phase with
  | filling =>
    rw [hphase] at h
    dsimp only at h
    by_cases hroom : p.next < p.loop.stop ∧ p.loop.room p.inflight = true
    · rw [if_pos hroom] at h
      cases h
      exact .submit hphase hroom.1 hroom.2
    · rw [if_neg hroom] at h
      cases h
      exact .full hphase hroom
  | waiting =>
    rw [hphase] at h
    dsimp only at h
    by_cases hempty : p.inflight.isEmpty = true
    · rw [if_pos hempty] at h
      cases h
      exact .leave hphase (List.isEmpty_iff.mp hempty)
    · rw [if_neg hempty] at h
      cases hr : p.loop.retire (fun i e => ready (t + i) (cl.token e)) p.inflight with
      | none =>
        rw [hr] at h
        cases h
      | some r =>
        rw [hr] at h
        cases h
        exact .retire hphase (fun hnil => hempty (List.isEmpty_iff.mpr hnil)) hr
  | refilling j =>
    rw [hphase] at h
    dsimp only at h
    by_cases hmore : 0 < j ∧ p.next < p.loop.stop
    · obtain ⟨j, rfl⟩ : ∃ i, j = i + 1 := ⟨j - 1, by omega⟩
      rw [if_pos hmore] at h
      cases h
      exact .refill hphase hmore.2
    · rw [if_neg hmore] at h
      cases h
      exact .refilled hphase hmore
  | returned =>
    rw [hphase] at h
    cases h

/-! ## termination -/

def Phase.weight : Phase → Nat
  | .filling => 2
  | .waiting => 1
  | .refilling j => j + 2
  | .returned => 0

def Party.weight (p : Party cl) : Nat :=
  4 * (p.loop.stop - p.next) + 3 * p.inflight.length + p.phase.weight

theorem submit_weight {phase : Phase} (hlt : p.next < p.loop.stop)
    (hphase : phase.weight ≤ p.phase.weight) : (p.submit lanes phase w).1.weight < p.weight := by
  show 4 * (p.loop.stop - (p.next + 1)) + 3 * (p.inflight ++ [_]).length + phase.weight < _
  rw [List.length_append, List.length_singleton, Party.weight]
  omega

/-- a probe that comes later finds at least what an earlier one found -/
theorem probe_mono (hfair : ready.Fair) (i j : Nat) (e : E) (hij : i ≤ j)
    (hi : ready (t + i) (cl.token e) = true) : ready (t + j) (cl.token e) = true :=
  hfair.stays (Nat.add_le_add_left hij t) hi

theorem phase_weight {phase : Phase} (hphase : phase.weight < p.phase.weight) :
    ({ p with phase := phase } : Party cl).weight < p.weight := by
  show 4 * (p.loop.stop - p.next) + 3 * p.inflight.length + phase.weight < _
  rw [Party.weight]
  omega

theorem move_weight (hfair : ready.Fair) (h : Moves lanes ready t p w p' w') :
    p'.weight < p.weight := by
  cases h with
  | submit hphase hlt hw =>
    exact submit_weight hlt (Nat.le_of_eq (congrArg Phase.weight hphase).symm)
  | full hphase hno =>
    refine phase_weight ?_
    rw [hphase]
    exact Nat.lt_succ_self 1
  | leave hphase hnil =>
    refine phase_weight ?_
    rw [hphase]
    exact Nat.lt_succ_self 0
  | @retire hphase hne r hr =>
    have hlen := p.loop.retire_length hr
    have hpos := p.loop.retire_pos (probe_mono hfair) hne hr
    rw [Party.weight, Party.weight, hphase]
    show 4 * (p.loop.stop - p.next) + 3 * r.2.length + (r.1.length + 2) < _ + 1
    omega
  | refill hphase hlt =>
    refine submit_weight hlt ?_
    rw [hphase]
    exact Nat.le_succ _
  | refilled hphase hno =>
    refine phase_weight ?_
    rw [hphase]
    exact Nat.lt_of_lt_of_le (Nat.lt_succ_self 1) (Nat.le_add_left 2 _)

theorem all_ready (hfair : ready.Fair) (l : List E) :
    ∃ T, ∀ t, T ≤ t → ∀ e ∈ l, ready t (cl.token e) = true := by
  induction l with
  | nil => exact ⟨0, fun _ _ e he => absurd he List.not_mem_nil⟩
  | cons a l ih =>
    obtain ⟨T, hT⟩ := ih
    obtain ⟨T', hT'⟩ := hfair.eventually (cl.token a)
    refine ⟨max T T', fun t ht e he => ?_⟩
    rcases List.mem_cons.mp he with rfl | he
    · exact hfair.stays (by omega) hT'
    · exact hT t (by omega) e he

theorem loop_progress (cl : Client E) (lanes : Nat) (hfair : ready.Fair) :
    Turns.Progress (Party.move lanes ready : Turns.Move (Party cl) World)
      (fun p => p.phase = .returned) Party.weight where
  lowers h := move_weight hfair (move_cases h)
  stops {t p s} hret := by
    show Party.move lanes ready t p s = none
    unfold Party.move
    rw [show p.phase = .returned from hret]
  moves {p} hret := by
    cases hphase : p.phase with
    | filling =>
      refine ⟨0, fun t _ w => ?_⟩
      unfold Party.move
      rw [hphase]
      dsimp only
      split
      · exact Option.some_ne_none _
      · exact Option.some_ne_none _
    | waiting =>
      obtain ⟨T, hT⟩ : ∃ T, ∀ t, T ≤ t → ∀ e ∈ p.inflight, ready t (cl.token e) = true :=
        all_ready hfair p.inflight
      refine ⟨T, fun t ht w => ?_⟩
      unfold Party.move
      rw [hphase]
      dsimp only
      split
      · exact Option.some_ne_none _
      · rename_i hne
        have hsome : p.loop.retire (fun i e => ready (t + i) (cl.token e)) p.inflight ≠ none :=
          p.loop.retire_some (fun hnil => hne (List.isEmpty_iff.mpr hnil)) fun i e he =>
            hT (t + i) (by omega) e he
        split
        · exact fun _ => hsome ‹_›
        · exact Option.some_ne_none _
    | refilling j =>
      refine ⟨0, fun t _ w => ?_⟩
      unfold Party.move
      rw [hphase]
      dsimp only
      split
      · exact Option.some_ne_none _
      · exact Option.some_ne_none _
    | returned => exact absurd hphase hret

/-! ## one client -/

/-- what the phase of a client says -/
def Party.Phased (p : Party cl) : Prop :=
  match p.phase with
  | .filling => True
  | .waiting => p.inflight = [] → p.loop.stop ≤ p.next
  | .refilling j => p.inflight = [] → j = 0 → p.loop.stop ≤ p.next
  | .returned => p.inflight = [] ∧ p.loop.stop ≤ p.next

/-- the requests in flight and those that the refill may still add fit the window -/
def Party.Fits (p : Party cl) : Prop :=
  ∀ n, p.loop.window = some n →
    match p.phase with
    | .refilling j => p.inflight.length + j ≤ n
    | _ => p.inflight.length ≤ n

/-- the requests in flight are different submissions -/
def Party.Held (p : Party cl) (w : World) : Prop :=
  (p.inflight.map cl.token).Nodup ∧ ∀ e ∈ p.inflight, cl.token e < w.log.length

theorem phased_move (hfair : ready.Fair) (hp : p.Phased) (h : Moves lanes ready t p w p' w') :
    p'.Phased := by
  cases h with
  | submit hphase hlt hw => trivial
  | full hphase hno =>
    intro (hnil : p.inflight = [])
    refine Nat.le_of_not_lt fun hlt => hno ⟨hlt, ?_⟩
    unfold Loop.room
    cases hwin : p.loop.window with
    | none => rfl
    | some n =>
      rw [hnil]
      exact decide_eq_true (p.loop.window_pos n hwin)
  | leave hphase hnil =>
    unfold Party.Phased at hp
    rw [hphase] at hp
    exact ⟨hnil, hp hnil⟩
  | @retire hphase hne r hr =>
    have hpos := p.loop.retire_pos (probe_mono hfair) hne hr
    exact fun _ hzero => absurd hzero (Nat.ne_of_gt hpos)
  | refill hphase hlt => exact fun hnil => absurd hnil (List.append_ne_nil_of_right_ne_nil _ (by simp))
  | @refilled j hphase hno =>
    unfold Party.Phased at hp
    rw [hphase] at hp
    intro (hnil : p.inflight = [])
    show p.loop.stop ≤ p.next
    by_cases hj : j = 0
    · exact hp hnil hj
    · omega

theorem fits_move (hp : p.Fits) (h : Moves lanes ready t p w p' w') : p'.Fits := by
  intro n hn
  cases h with
  | submit hphase hlt hw =>
    have hroom : p.inflight.length < n := by
      unfold Loop.room at hw
      rw [show p.loop.window = some n from hn] at hw
      exact of_decide_eq_true hw
    show (p.inflight ++ [_]).length ≤ n
    rw [List.length_append, List.length_singleton]
    omega
  | full hphase hno =>
    have := hp n hn
    rw [hphase] at this
    exact this
  | leave hphase hnil =>
    have := hp n hn
    rw [hphase] at this
    exact this
  | @retire hphase hne r hr =>
    have hlen := p.loop.retire_length hr
    have := hp n hn
    rw [hphase] at this
    show r.2.length + r.1.length ≤ n
    dsimp only at this
    omega
  | refill hphase hlt =>
    have := hp n hn
    rw [hphase] at this
    show (p.inflight ++ [_]).length + _ ≤ n
    rw [List.length_append, List.length_singleton]
    dsimp only at this
    omega
  | refilled hphase hno =>
    have := hp n hn
    rw [hphase] at this
    show p.inflight.length ≤ n
    dsimp only at this
    omega

theorem held_submit {phase : Phase} (hp : p.Held w) :
    (p.submit lanes phase w).1.Held (p.submit lanes phase w).2 := by
  obtain ⟨hnodup, hlt⟩ := hp
  have hlog : (p.submit lanes phase w).2.log.length = w.log.length + 1 := List.length_append
  refine ⟨?_, fun e he => ?_⟩
  · show ((p.inflight ++ [cl.entry _ w.log.length]).map cl.token).Nodup
    rw [List.map_append, List.map_singleton, cl.token_entry]
    refine List.nodup_append.mpr ⟨hnodup, List.nodup_singleton _, fun a ha b hb => ?_⟩
    obtain ⟨e, he, rfl⟩ := List.mem_map.mp ha
    rw [List.mem_singleton.mp hb]
    exact Nat.ne_of_lt (hlt e he)
  · rw [hlog]
    rcases List.mem_append.mp he with he | he
    · exact Nat.lt_succ_of_lt (hlt e he)
    · rw [List.mem_singleton.mp he, cl.token_entry]
      exact Nat.lt_succ_self _

theorem held_move (hp : p.Held w) (h : Moves lanes ready t p w p' w') : p'.Held w' := by
  cases h with
  | submit hphase hlt hw => exact held_submit hp
  | full hphase hno => exact hp
  | leave hphase hnil => exact hp
  | @retire hphase hne r hr =>
    obtain ⟨hnodup, hlt⟩ := hp
    have hperm := p.loop.retire_perm hnodup hr
    have hmap := (hperm.map cl.token).nodup_iff.mpr hnodup
    rw [List.map_append] at hmap
    exact ⟨(List.nodup_append.mp hmap).2.1, fun e he => hlt e (hperm.subset (List.mem_append_right _ he))⟩
  | refill hphase hlt => exact held_submit hp
  | refilled hphase hno => exact hp

theorem log_move (h : Moves lanes ready t p w p' w') : w.log.length ≤ w'.log.length := by
  have hsubmit : ∀ phase, w.log.length ≤ (p.submit lanes phase w).2.log.length := by
    intro phase
    show _ ≤ (w.log ++ [_]).length
    rw [List.length_append]
    exact Nat.le_add_right _ _
  cases h with
  | submit hphase hlt hw => exact hsubmit _
  | refill hphase hlt => exact hsubmit _
  | full hphase hno => exact Nat.le_refl _
  | leave hphase hnil => exact Nat.le_refl _
  | retire hphase hne hr => exact Nat.le_refl _
  | refilled hphase hno => exact Nat.le_refl _

theorem Party.Held.later (h : p.Held w) (hlog : w.log.length ≤ w'.log.length) : p.Held w' :=
  ⟨h.1, fun e he => Nat.lt_of_lt_of_le (h.2 e he) hlog⟩

/-! ## all clients -/

/-- replacing one element changes its part of a `flatMap` alone -/
theorem flatMap_set {α β : Type} {l : List α} {k : Nat} {a : α} (f : α → List β)
    (hk : l[k]? = some a) :
    ∃ rest, (l.flatMap f).Perm (f a ++ rest) ∧ ∀ b, ((l.set k b).flatMap f).Perm (f b ++ rest) := by
  induction l generalizing k with
  | nil => cases hk
  | cons c l ih =>
    cases k with
    | zero =>
      cases hk
      exact ⟨l.flatMap f, .refl _, fun b => .refl _⟩
    | succ k =>
      obtain ⟨rest, hl, hset⟩ := ih hk
      have hswap : ∀ a, (f c ++ (f a ++ rest)).Perm (f a ++ (f c ++ rest)) := fun a => by
        rw [← List.append_assoc, ← List.append_assoc]
        exact List.perm_append_comm.append_right rest
      refine ⟨f c ++ rest, ?_, fun b => ?_⟩
      · rw [List.flatMap_cons]
        exact (hl.append_left _).trans (hswap a)
      · rw [List.set_cons_succ, List.flatMap_cons]
        exact ((hset b).append_left _).trans (hswap b)

/-- what the drivers keep of the submissions -/
def entries (cl : Client E) (log : List Submission) : List E :=
  log.mapIdx fun n s => cl.entry s.idx n

/-- what a client holds and what it has recorded -/
def Party.owned (p : Party cl) : List E := p.inflight ++ p.results

/-- the clients and the log: each index is in the log or still to come, and each submission is in
flight or recorded -/
structure Whole (lanes : Nat) (all : List Nat) (record : Bool) (c : List (Party cl) × World) : Prop
    where
  recorded : ∀ p ∈ c.1, p.loop.record = record
  phased : ∀ p ∈ c.1, p.Phased
  held : ∀ p ∈ c.1, p.Held c.2
  idx : (c.2.log.map Submission.idx ++ c.1.flatMap Party.todo).Perm all
  owned : record = true → (c.1.flatMap Party.owned).Perm (entries cl c.2.log)
  sent : ∀ s ∈ c.2.log, s.request = cl.request s.idx ∧ (0 < lanes → s.lane < lanes)

/-- an action that keeps the indices, the log and the entries -/
def Keeps (p : Party cl) (w : World) (p' : Party cl) (w' : World) : Prop :=
  w' = w ∧ p'.todo = p.todo ∧ (p.loop.record = true → p'.owned.Perm p.owned)

/-- an action that takes the next index to the log -/
def Adds (lanes : Nat) (p : Party cl) (w : World) (p' : Party cl) (w' : World) : Prop :=
  ∃ s, p.todo = s.idx :: p'.todo ∧ w'.log = w.log ++ [s] ∧
    (s.request = cl.request s.idx ∧ (0 < lanes → s.lane < lanes)) ∧
    p'.owned = p.inflight ++ [cl.entry s.idx w.log.length] ++ p.results

theorem submit_adds (phase : Phase) (hlt : p.next < p.loop.stop) :
    Adds lanes p w (p.submit lanes phase w).1 (p.submit lanes phase w).2 := by
  refine ⟨⟨p.loop.index p.next, cl.request (p.loop.index p.next), w.rr % lanes⟩, ?_, rfl,
    ⟨rfl, fun hl => Nat.mod_lt _ hl⟩, rfl⟩
  show (List.range' p.next (p.loop.stop - p.next)).map p.loop.index
    = p.loop.index p.next :: (List.range' (p.next + 1) (p.loop.stop - (p.next + 1))).map p.loop.index
  rw [show p.loop.stop - p.next = p.loop.stop - (p.next + 1) + 1 by omega, List.range'_succ,
    List.map_cons]

theorem move_delta (hp : p.Held w) (h : Moves lanes ready t p w p' w') :
    Keeps p w p' w' ∨ Adds lanes p w p' w' := by
  cases h with
  | submit hphase hlt hw => exact Or.inr (submit_adds _ hlt)
  | full hphase hno => exact Or.inl ⟨rfl, rfl, fun _ => .refl _⟩
  | leave hphase hnil => exact Or.inl ⟨rfl, rfl, fun _ => .refl _⟩
  | @retire hphase hne r hr =>
    refine Or.inl ⟨rfl, rfl, fun hrec => ?_⟩
    have hperm := p.loop.retire_perm hp.1 hr
    show (r.2 ++ if p.loop.record = true then p.results ++ r.1 else p.results).Perm
      (p.inflight ++ p.results)
    rw [if_pos hrec]
    calc (r.2 ++ (p.results ++ r.1)).Perm (r.2 ++ (r.1 ++ p.results)) :=
          List.perm_append_comm.append_left _
      _ = r.2 ++ r.1 ++ p.results := (List.append_assoc _ _ _).symm
      List.Perm _ (r.1 ++ r.2 ++ p.results) := List.perm_append_comm.append_right _
      List.Perm _ (p.inflight ++ p.results) := hperm.append_right _
  | refill hphase hlt => exact Or.inr (submit_adds _ hlt)
  | refilled hphase hno => exact Or.inl ⟨rfl, rfl, fun _ => .refl _⟩

theorem move_loop (h : Moves lanes ready t p w p' w') : p'.loop = p.loop := by
  cases h with
  | submit => rfl
  | full => rfl
  | leave => rfl
  | retire => rfl
  | refill => rfl
  | refilled => rfl

/-- a property of the mover and of the others holds of all -/
theorem forall_set {α : Type} {P Q : α → Prop} {l : List α} {k : Nat} {a : α}
    (hl : ∀ b ∈ l, P b) (ha : Q a) (hrest : ∀ b, P b → Q b) : ∀ b ∈ l.set k a, Q b := by
  intro b hb
  rcases List.mem_or_eq_of_mem_set hb with hb | rfl
  · exact hrest b (hl b hb)
  · exact ha

theorem entries_snoc (log : List Submission) (s : Submission) :
    entries cl (log ++ [s]) = entries cl log ++ [cl.entry s.idx log.length] := by
  unfold entries
  rw [List.mapIdx_concat]

/-- **One action keeps what all clients keep.** -/
theorem whole_move {all : List Nat} {record : Bool} (hfair : ready.Fair)
    {c : List (Party cl) × World} {k : Nat} (hc : Whole lanes all record c)
    (hk : c.1[k]? = some p) (h : Moves lanes ready t p c.2 p' w') :
    Whole lanes all record (c.1.set k p', w') := by
  have hmem := List.mem_of_getElem? hk
  have hheld := hc.held p hmem
  obtain ⟨todos, htodos, htodos'⟩ := flatMap_set Party.todo hk
  obtain ⟨others, hothers, hothers'⟩ := flatMap_set Party.owned hk
  refine ⟨forall_set hc.recorded ((congrArg _ (move_loop h)).trans (hc.recorded p hmem)) fun _ hq => hq,
    forall_set hc.phased (phased_move hfair (hc.phased p hmem) h) fun _ hq => hq,
    forall_set hc.held (held_move hheld h) fun _ hq => hq.later (log_move h), ?_, ?_, ?_⟩
  · rcases move_delta hheld h with ⟨rfl, htodo, _⟩ | ⟨s, htodo, hlog, _, _⟩
    · refine ((htodos' p').append_left _).trans ?_
      rw [htodo]
      exact (htodos.symm.append_left _).trans hc.idx
    · show ((w'.log.map Submission.idx) ++ (c.1.set k p').flatMap Party.todo).Perm all
      rw [hlog, List.map_append, List.append_assoc, List.map_singleton]
      refine (((htodos' p').append_left _).append_left _).trans ?_
      rw [List.singleton_append, ← List.cons_append, ← htodo]
      exact (htodos.symm.append_left _).trans hc.idx
  · intro hrec
    rcases move_delta hheld h with ⟨rfl, _, howned⟩ | ⟨s, _, hlog, _, howned⟩
    · have hp := howned ((hc.recorded p hmem).trans hrec)
      exact (hothers' p').trans ((hp.append_right _).trans (hothers.symm.trans (hc.owned hrec)))
    · show ((c.1.set k p').flatMap Party.owned).Perm (entries cl w'.log)
      rw [hlog, entries_snoc]
      refine (hothers' p').trans ?_
      rw [howned]
      have hmove : (p.inflight ++ [cl.entry s.idx c.2.log.length] ++ p.results).Perm
          (p.owned ++ [cl.entry s.idx c.2.log.length]) := by
        rw [List.append_assoc, Party.owned, List.append_assoc]
        exact List.perm_append_comm.append_left _
      refine (hmove.append_right others).trans ?_
      rw [List.append_assoc]
      refine (List.perm_append_comm.append_left _).trans ?_
      rw [← List.append_assoc]
      exact (hothers.symm.trans (hc.owned hrec)).append_right _
  · intro s' hs'
    rcases move_delta hheld h with ⟨rfl, _, _⟩ | ⟨s, _, hlog, hsent, _⟩
    · exact hc.sent s' hs'
    · have hs' : s' ∈ w'.log := hs'
      rw [hlog] at hs'
      rcases List.mem_append.mp hs' with hs' | hs'
      · exact hc.sent s' hs'
      · rw [List.mem_singleton.mp hs']
        exact hsent

/-! ## whole runs -/

/-- the loops of a driver, before any of them has started -/
def begin (loops : List (Loop cl)) (rr : Nat) : List (Party cl) × World :=
  (loops.map Party.start, { rr := rr })

theorem whole_begin {record : Bool} (loops : List (Loop cl)) (rr : Nat)
    (hrec : ∀ lp ∈ loops, lp.record = record) :
    Whole lanes (loops.flatMap Loop.indices) record (begin loops rr) where
  recorded p hp := by
    obtain ⟨lp, hlp, rfl⟩ := List.mem_map.mp hp
    exact hrec lp hlp
  phased p hp := by
    obtain ⟨lp, hlp, rfl⟩ := List.mem_map.mp hp
    trivial
  held p hp := by
    obtain ⟨lp, hlp, rfl⟩ := List.mem_map.mp hp
    exact ⟨List.nodup_nil, fun e he => absurd he List.not_mem_nil⟩
  idx := by
    show ([] ++ (loops.map Party.start).flatMap Party.todo).Perm _
    rw [List.nil_append, List.flatMap_map]
    exact .refl _
  owned _ := by
    show ((loops.map Party.start).flatMap Party.owned).Perm []
    rw [List.flatMap_map]
    exact .of_eq (List.flatMap_eq_nil_iff.mpr fun _ _ => rfl)
  sent s hs := absurd hs List.not_mem_nil

/-- the state of a driver at a time -/
abbrev stateAt (lanes : Nat) (ready : Completion) (who : Nat → Nat) (loops : List (Loop cl))
    (rr t : Nat) : List (Party cl) × World :=
  Turns.exec (Party.move lanes ready) who (begin loops rr) t

theorem whole_at {record : Bool} (hfair : ready.Fair) {loops : List (Loop cl)} {rr : Nat}
    (hrec : ∀ lp ∈ loops, lp.record = record) (who : Nat → Nat) (t : Nat) :
    Whole lanes (loops.flatMap Loop.indices) record (stateAt lanes ready who loops rr t) :=
  Turns.exec_inv _ (whole_begin loops rr hrec)
    (fun _ _ _ _ _ _ hc hk hm => whole_move hfair hc hk (move_cases hm)) t

/-- every loop has ended; each index was submitted once, to a lane there is, with its own request, and
what was recorded is one entry for each submission -/
structure Complete (cl : Client E) (lanes : Nat) (all : List Nat) (record : Bool)
    (c : List (Party cl) × World) : Prop where
  ended : ∀ p ∈ c.1, p.phase = .returned
  once : (c.2.log.map Submission.idx).Perm all
  sent : ∀ s ∈ c.2.log, s.request = cl.request s.idx ∧ (0 < lanes → s.lane < lanes)
  recorded : record = true → (c.1.flatMap Party.results).Perm (entries cl c.2.log)

theorem whole_ended {all : List Nat} {record : Bool} {c : List (Party cl) × World}
    (hc : Whole lanes all record c) (hend : ∀ p ∈ c.1, p.phase = .returned) :
    Complete cl lanes all record c := by
  have hnil : ∀ p ∈ c.1, p.inflight = [] ∧ p.todo = [] := by
    intro p hp
    have hph := hc.phased p hp
    unfold Party.Phased at hph
    rw [hend p hp] at hph
    refine ⟨hph.1, ?_⟩
    rw [Party.todo, Nat.sub_eq_zero_of_le hph.2]
    rfl
  have htodo : c.1.flatMap Party.todo = [] := List.flatMap_eq_nil_iff.mpr fun p hp => (hnil p hp).2
  have howned : c.1.flatMap Party.owned = c.1.flatMap Party.results := by
    refine List.flatMap_congr fun p hp => ?_
    rw [Party.owned, (hnil p hp).1, List.nil_append]
  refine ⟨hend, ?_, hc.sent, fun hrec => ?_⟩
  · have hidx := hc.idx
    rw [htodo, List.append_nil] at hidx
    exact hidx
  · rw [← howned]
    exact hc.owned hrec

/-- **Under a fair schedule the loops end**, and from then on everything was submitted and retired
once. -/
theorem loops_complete {record : Bool} (hfair : ready.Fair) {loops : List (Loop cl)} {rr : Nat}
    (hrec : ∀ lp ∈ loops, lp.record = record) {who : Nat → Nat}
    (hwho : Turns.Fair who loops.length) :
    ∃ T, ∀ t, T ≤ t → Complete cl lanes (loops.flatMap Loop.indices) record
      (stateAt lanes ready who loops rr t) := by
  have hlen : (begin loops rr).1.length = loops.length := List.length_map _
  obtain ⟨T, hT⟩ := Turns.exec_ends (loop_progress cl lanes hfair) (hlen ▸ hwho)
  refine ⟨T, fun t ht => ?_⟩
  have hstay : stateAt lanes ready who loops rr t = stateAt lanes ready who loops rr T :=
    Turns.exec_stays (loop_progress cl lanes hfair) hT ht
  rw [hstay]
  exact whole_ended (whole_at hfair hrec who T) hT

end

end Bench
end RayX
