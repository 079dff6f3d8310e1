import RayX.Lib.Run

/-!
# The verifier of a throughput batch

`ThroughputVerifier`: one thread that checks results against the oracle, and a bounded queue to it from
the scheduler.

* `Verifier`        the queue, the counters of the thread, and where the thread and its caller are;
* `Verifier.step`   `enqueue` and `finish` of the caller, and the loop of the thread;
* `Verifier.Sound`  the items come out in the order in which they went in, and the counters are those of
                    the items judged so far;
* `Sound.step`      every step keeps it;
* `all_right_iff`   **the three counters show that all is right exactly when every item was judged and
                    found right**;
* `Sound.unblocked` a high-water mark below the capacity means that no `enqueue` ever waited.
-/

namespace RayX
namespace Throughput
open Sys
variable {ρ : Type}

structure Item (ρ : Type) where
  reqId : Nat
  result : ρ

/-- what `_verify` does with an item -/
inductive Verdict where
  | right
  | wrong (reasons : List String)
  | raised (text : String)
  deriving DecidableEq

namespace Verdict

@[simp] def isRight : Verdict → Bool
  | right => true
  | _ => false

@[simp] def reasons : Verdict → Option (List String)
  | wrong reasons => some reasons
  | _ => none

@[simp] def text : Verdict → Option String
  | raised text => some text
  | _ => none

end Verdict

/-- the verifier thread; `a` is when it began to judge -/
inductive Worker (ρ : Type) where
  | waiting
  | judging (item : Item ρ) (a : Nat)
  | returned

def Worker.holds : Worker ρ → List (Item ρ)
  | .judging item _ => [item]
  | _ => []

/-- the scheduler thread in `enqueue` and in `finish`; `a` is when it was blocked -/
inductive Caller (ρ : Type) where
  | outside
  | offering (item : Item ρ)
  | blocked (item : Item ρ) (a : Nat)
  | stopping
  | joining
  | finished

def Caller.holds : Caller ρ → List (Item ρ)
  | .offering item => [item]
  | .blocked item _ => [item]
  | _ => []

/-- the caller has put the sentinel -/
def Caller.stopped : Caller ρ → Bool
  | .joining => true
  | .finished => true
  | _ => false

/-- `none` in the queue is the sentinel `_stop`.  History: `accepted`, the items that went into the
queue; `judged`, those that the thread is done with; `depths`, the sizes of the queue that `enqueue`
noted; `waited`, how many calls of it were blocked -/
structure Verifier (ρ : Type) where
  capacity : Nat
  q : List (Option (Item ρ)) := []
  verified : Nat := 0
  invalid : Nat := 0
  firstInvalid : Option (Nat × List String) := none
  exception : Option String := none
  highWater : Nat := 0
  enqueueBlockNs : Nat := 0
  enqueueAttempts : Nat := 0
  maxVerifyLatencyNs : Nat := 0
  worker : Worker ρ := .waiting
  caller : Caller ρ := .outside
  accepted : List (Item ρ) := []
  judged : List (Item ρ) := []
  depths : List Nat := []
  waited : Nat := 0

inductive VerifierAct (ρ : Type) where
  | enqueue (item : Item ρ)
  | put
  | resume
  | finish
  | putStop
  | join
  | joinTimeout
  | get
  | judge

/-- the steps that neither `enqueue` nor `finish` begins -/
def VerifierAct.own : VerifierAct ρ → Bool
  | .enqueue _ => false
  | .finish => false
  | _ => true

namespace Verifier

/-- `queue.Queue.full`; a queue of capacity 0 has no bound -/
def full (v : Verifier ρ) : Bool := decide (0 < v.capacity ∧ v.capacity ≤ v.q.length)

def push (v : Verifier ρ) (item : Item ρ) : Verifier ρ :=
  { v with q := v.q ++ [some item], accepted := v.accepted ++ [item], caller := .outside }

/-- an exception of `_verify` skips the latency -/
def record (v : Verifier ρ) (now a : Nat) (item : Item ρ) : Verdict → Verifier ρ
  | .right => { v with
      verified := v.verified + 1
      maxVerifyLatencyNs := max v.maxVerifyLatencyNs (now - a)
      worker := .waiting
      judged := v.judged ++ [item] }
  | .wrong reasons => { v with
      invalid := v.invalid + 1
      firstInvalid := v.firstInvalid.or (some (item.reqId, reasons))
      maxVerifyLatencyNs := max v.maxVerifyLatencyNs (now - a)
      worker := .waiting
      judged := v.judged ++ [item] }
  | .raised text => { v with
      exception := some text
      worker := .waiting
      judged := v.judged ++ [item] }

def step (verify : Item ρ → Verdict) (now : Nat) (v : Verifier ρ) :
    VerifierAct ρ → Option (Verifier ρ)
  | .enqueue item =>
    match v.caller with
    | .outside => some { v with
        caller := .offering item
        enqueueAttempts := v.enqueueAttempts + 1
        highWater := max v.highWater v.q.length
        depths := v.depths ++ [v.q.length] }
    | _ => none
  | .put =>
    match v.caller with
    | .offering item =>
      if v.full then some { v with caller := .blocked item now, waited := v.waited + 1 }
      else some (v.push item)
    | _ => none
  | .resume =>
    match v.caller with
    | .blocked item a =>
      if v.full then none
      else some { v.push item with enqueueBlockNs := v.enqueueBlockNs + (now - a) }
    | _ => none
  | .finish =>
    match v.caller with
    | .outside => some { v with caller := .stopping }
    | _ => none
  | .putStop =>
    match v.caller with
    | .stopping => if v.full then none else some { v with q := v.q ++ [none], caller := .joining }
    | _ => none
  | .join =>
    match v.caller, v.worker with
    | .joining, .returned => some { v with caller := .finished }
    | _, _ => none
  | .joinTimeout =>
    match v.caller with
    | .joining => some { v with caller := .finished }
    | _ => none
  | .get =>
    match v.worker, v.q with
    | .waiting, some item :: q => some { v with q := q, worker := .judging item now }
    | .waiting, none :: q => some { v with q := q, worker := .returned }
    | _, _ => none
  | .judge =>
    match v.worker with
    | .judging item a => some (v.record now a item (verify item))
    | _ => none

/-! ## the invariant -/

/-- what is in the queue, up to the sentinel -/
def queued (v : Verifier ρ) : List (Item ρ) := v.q.filterMap id

/-- the counters of the thread are those of the items it has judged -/
structure Counts (verify : Item ρ → Verdict) (v : Verifier ρ) : Prop where
  verified : v.verified = v.judged.countP fun item => (verify item).isRight
  invalid : v.invalid = (v.judged.filterMap fun item => (verify item).reasons).length
  first : v.firstInvalid =
    (v.judged.filterMap fun item => (verify item).reasons.map fun r => (item.reqId, r)).head?
  exception : v.exception = (v.judged.filterMap fun item => (verify item).text).getLast?

/-- how full the queue has been -/
structure Depths (v : Verifier ρ) : Prop where
  attempts : v.enqueueAttempts = v.accepted.length + v.caller.holds.length
  high : v.highWater = v.depths.foldl max 0
  offered : ∀ item, v.caller = .offering item → v.q.length ≤ v.highWater
  waited : v.waited ≠ 0 → 0 < v.capacity ∧ v.capacity ≤ v.highWater
  blocked : v.waited = 0 → v.enqueueBlockNs = 0 ∧ ∀ item a, v.caller ≠ .blocked item a

/-- the sentinel comes last, and the thread returns when it takes it -/
def Sealed (v : Verifier ρ) : Prop :=
  if v.caller.stopped then
    (v.worker = .returned ∧ v.q = []) ∨
      ∃ items : List (Item ρ), v.q = items.map some ++ [none] ∧ v.worker ≠ .returned
  else ∃ items : List (Item ρ), v.q = items.map some ∧ v.worker ≠ .returned

structure Sound (verify : Item ρ → Verdict) (v : Verifier ρ) : Prop where
  order : v.accepted = v.judged ++ v.worker.holds ++ v.queued
  seals : v.Sealed
  counts : Counts verify v
  depths : Depths v

variable {verify : Item ρ → Verdict} {now : Nat} {v v' : Verifier ρ} {x : VerifierAct ρ}

/-! ## one step -/

/-- what the caller and the thread can do -/
inductive Moves (verify : Item ρ → Verdict) (now : Nat) (v : Verifier ρ) :
    VerifierAct ρ → Verifier ρ → Prop
  | offers (item : Item ρ) (hc : v.caller = .outside) : Moves verify now v (.enqueue item) { v with
      caller := .offering item
      enqueueAttempts := v.enqueueAttempts + 1
      highWater := max v.highWater v.q.length
      depths := v.depths ++ [v.q.length] }
  | accepts {item : Item ρ} (hc : v.caller = .offering item) (hf : v.full = false) :
      Moves verify now v .put (v.push item)
  | blocks {item : Item ρ} (hc : v.caller = .offering item) (hf : v.full = true) :
      Moves verify now v .put { v with caller := .blocked item now, waited := v.waited + 1 }
  | resumes {item : Item ρ} {a : Nat} (hc : v.caller = .blocked item a) (hf : v.full = false) :
      Moves verify now v .resume { v.push item with enqueueBlockNs := v.enqueueBlockNs + (now - a) }
  | stops (hc : v.caller = .outside) : Moves verify now v .finish { v with caller := .stopping }
  | seals (hc : v.caller = .stopping) (hf : v.full = false) :
      Moves verify now v .putStop { v with q := v.q ++ [none], caller := .joining }
  | leaves {x : VerifierAct ρ} (hx : x.own = true) (hc : v.caller = .joining) :
      Moves verify now v x { v with caller := .finished }
  | takes {item : Item ρ} {q : List (Option (Item ρ))} (hw : v.worker = .waiting)
      (hq : v.q = some item :: q) :
      Moves verify now v .get { v with q := q, worker := .judging item now }
  | returns {q : List (Option (Item ρ))} (hw : v.worker = .waiting) (hq : v.q = none :: q) :
      Moves verify now v .get { v with q := q, worker := .returned }
  | judges {item : Item ρ} {a : Nat} (hw : v.worker = .judging item a) :
      Moves verify now v .judge (v.record now a item (verify item))

theorem step_moves (h : v.step verify now x = some v') :
    Moves verify now v x v' := by
  cases x with
  | enqueue item =>
    simp only [step] at h
    split at h
    · cases h
      exact .offers item ‹_›
    · cases h
  | put =>
    simp only [step] at h
    split at h
    · split at h
      · cases h
        exact .blocks ‹_› ‹_›
      · cases h
        exact .accepts ‹_› (Bool.eq_false_iff.mpr ‹_›)
    · cases h
  | resume =>
    simp only [step] at h
    split at h
    · split at h
      · cases h
      · cases h
        exact .resumes ‹_› (Bool.eq_false_iff.mpr ‹_›)
    · cases h
  | finish =>
    simp only [step] at h
    split at h
    · cases h
      exact .stops ‹_›
    · cases h
  | putStop =>
    simp only [step] at h
    split at h
    · split at h
      · cases h
      · cases h
        exact .seals ‹_› (Bool.eq_false_iff.mpr ‹_›)
    · cases h
  | join =>
    simp only [step] at h
    split at h
    · cases h
      exact .leaves rfl ‹_›
    · cases h
  | joinTimeout =>
    simp only [step] at h
    split at h
    · cases h
      exact .leaves rfl ‹_›
    · cases h
  | get =>
    simp only [step] at h
    split at h
    · cases h
      exact .takes ‹_› ‹_›
    · cases h
      exact .returns ‹_› ‹_›
    · cases h
  | judge =>
    simp only [step] at h
    split at h
    · cases h
      exact .judges ‹_›
    · cases h

/-- what a judgement leaves alone -/
theorem record_frame (v : Verifier ρ) (now a : Nat) (item : Item ρ) (r : Verdict) :
    (v.record now a item r).q = v.q ∧ (v.record now a item r).worker = .waiting ∧
      (v.record now a item r).caller = v.caller ∧ (v.record now a item r).accepted = v.accepted ∧
      (v.record now a item r).judged = v.judged ++ [item] ∧
      (v.record now a item r).capacity = v.capacity := by
  cases r <;> exact ⟨rfl, rfl, rfl, rfl, rfl, rfl⟩

theorem record_depths (v : Verifier ρ) (now a : Nat) (item : Item ρ) (r : Verdict) :
    (v.record now a item r).enqueueAttempts = v.enqueueAttempts ∧
      (v.record now a item r).highWater = v.highWater ∧ (v.record now a item r).depths = v.depths ∧
      (v.record now a item r).waited = v.waited ∧
      (v.record now a item r).enqueueBlockNs = v.enqueueBlockNs := by
  cases r <;> exact ⟨rfl, rfl, rfl, rfl, rfl⟩

theorem Counts.record (h : Counts verify v) (now a : Nat) (item : Item ρ) :
    Counts verify (v.record now a item (verify item)) := by
  have hv := h.verified
  have hi := h.invalid
  have hf := h.first
  have he := h.exception
  cases hr : verify item with
  | right =>
    refine ⟨?_, ?_, ?_, ?_⟩
    · simp [Verifier.record, hr, hv]
    · simp [Verifier.record, hr, hi]
    · simp [Verifier.record, hr, hf]
    · simp [Verifier.record, hr, he]
  | wrong rs =>
    refine ⟨?_, ?_, ?_, ?_⟩
    · simp [Verifier.record, hr, hv]
    · simp [Verifier.record, hr, hi]
    · simp [Verifier.record, hr, hf]
    · simp [Verifier.record, hr, he]
  | raised t =>
    refine ⟨?_, ?_, ?_, ?_⟩
    · simp [Verifier.record, hr, hv]
    · simp [Verifier.record, hr, hi]
    · simp [Verifier.record, hr, hf]
    · simp [Verifier.record, hr]

theorem queued_concat (v : Verifier ρ) (item : Item ρ) :
    (v.q ++ [some item]).filterMap id = v.queued ++ [item] := by
  simp [queued]

/-- **The items keep their order.** -/
theorem Sound.order_step (h : Sound verify v) (hm : Moves verify now v x v') :
    v'.accepted = v'.judged ++ v'.worker.holds ++ v'.queued := by
  have ho := h.order
  cases hm with
  | offers item hc => exact ho
  | @accepts item hc hf =>
    show v.accepted ++ [item] = v.judged ++ v.worker.holds ++ (v.q ++ [some item]).filterMap id
    rw [queued_concat, ho, List.append_assoc]
  | blocks hc hf => exact ho
  | @resumes item a hc hf =>
    show v.accepted ++ [item] = v.judged ++ v.worker.holds ++ (v.q ++ [some item]).filterMap id
    rw [queued_concat, ho, List.append_assoc]
  | stops hc => exact ho
  | seals hc hf =>
    show v.accepted = v.judged ++ v.worker.holds ++ (v.q ++ [none]).filterMap id
    rw [ho]
    simp [queued]
  | leaves hx hc => exact ho
  | @takes item q hw hq =>
    show v.accepted = v.judged ++ [item] ++ q.filterMap id
    rw [ho, hw]
    simp [Worker.holds, queued, hq]
  | @returns q hw hq =>
    show v.accepted = v.judged ++ [] ++ q.filterMap id
    rw [ho, hw]
    simp [Worker.holds, queued, hq]
  | @judges item a hw =>
    obtain ⟨hq, hwait, _, hacc, hj, _⟩ := record_frame v now a item (verify item)
    rw [hacc, hj, hwait, queued, hq, ho, hw]
    simp [Worker.holds, queued]

theorem Sound.seals_step (h : Sound verify v) (hm : Moves verify now v x v') : v'.Sealed := by
  have hs := h.seals
  unfold Sealed at hs ⊢
  cases hm with
  | offers item hc =>
    rw [hc] at hs
    exact hs
  | @accepts item hc hf =>
    rw [hc] at hs
    obtain ⟨items, hq, hw⟩ := hs
    refine ⟨items ++ [item], ?_, hw⟩
    show v.q ++ [some item] = _
    rw [hq, List.map_append, List.map_singleton]
  | blocks hc hf =>
    rw [hc] at hs
    exact hs
  | @resumes item a hc hf =>
    rw [hc] at hs
    obtain ⟨items, hq, hw⟩ := hs
    refine ⟨items ++ [item], ?_, hw⟩
    show v.q ++ [some item] = _
    rw [hq, List.map_append, List.map_singleton]
  | stops hc =>
    rw [hc] at hs
    exact hs
  | seals hc hf =>
    rw [hc] at hs
    obtain ⟨items, hq, hw⟩ := hs
    exact Or.inr ⟨items, by rw [hq], hw⟩
  | leaves hx hc =>
    rw [hc] at hs
    exact hs
  | @takes item q hw hq =>
    dsimp only
    cases hst : v.caller.stopped with
    | true =>
      rw [hst] at hs
      rcases hs with ⟨hret, _⟩ | ⟨items, hits, _⟩
      · rw [hw] at hret
        cases hret
      · rw [hq] at hits
        cases items with
        | nil => cases hits
        | cons x items =>
          exact Or.inr ⟨items, (List.cons.inj hits).2, fun hret => by cases hret⟩
    | false =>
      rw [hst] at hs
      obtain ⟨items, hits, _⟩ := hs
      rw [hq] at hits
      cases items with
      | nil => cases hits
      | cons x items => exact ⟨items, (List.cons.inj hits).2, fun hret => by cases hret⟩
  | @returns q hw hq =>
    dsimp only
    cases hst : v.caller.stopped with
    | true =>
      rw [hst] at hs
      rcases hs with ⟨hret, _⟩ | ⟨items, hits, _⟩
      · rw [hw] at hret
        cases hret
      · rw [hq] at hits
        cases items with
        | nil => exact Or.inl ⟨rfl, (List.cons.inj hits).2⟩
        | cons x items => cases (List.cons.inj hits).1
    | false =>
      rw [hst] at hs
      obtain ⟨items, hits, _⟩ := hs
      rw [hq] at hits
      cases items with
      | nil => cases hits
      | cons x items => cases (List.cons.inj hits).1
  | @judges item a hw =>
    obtain ⟨hq, hwait, hcall, _⟩ := record_frame v now a item (verify item)
    rw [hcall, hq, hwait]
    cases hst : v.caller.stopped with
    | true =>
      rw [hst] at hs
      rcases hs with ⟨hret, _⟩ | ⟨items, hits, _⟩
      · rw [hw] at hret
        cases hret
      · exact Or.inr ⟨items, hits, fun hret => by cases hret⟩
    | false =>
      rw [hst] at hs
      obtain ⟨items, hits, _⟩ := hs
      exact ⟨items, hits, fun hret => by cases hret⟩

theorem Sound.counts_step (h : Sound verify v) (hm : Moves verify now v x v') : Counts verify v' := by
  have hc := h.counts
  cases hm with
  | @judges item a hw => exact hc.record now a item
  | _ => exact ⟨hc.verified, hc.invalid, hc.first, hc.exception⟩

theorem Sound.depths_step (h : Sound verify v) (hm : Moves verify now v x v') : Depths v' := by
  have hd := h.depths
  have ha := hd.attempts
  cases hm with
  | offers item hc =>
    rw [hc] at ha
    refine { attempts := ?_, high := ?_, offered := ?_, waited := ?_, blocked := ?_ }
    · show v.enqueueAttempts + 1 = v.accepted.length + 1
      rw [ha]
      rfl
    · show max v.highWater v.q.length = (v.depths ++ [v.q.length]).foldl max 0
      rw [List.foldl_append, ← hd.high]
      rfl
    · exact fun _ _ => Nat.le_max_right _ _
    · exact fun hw => ⟨(hd.waited hw).1, Nat.le_trans (hd.waited hw).2 (Nat.le_max_left _ _)⟩
    · exact fun hw => ⟨(hd.blocked hw).1, fun _ _ hb => by cases hb⟩
  | @accepts item hc hf =>
    rw [hc] at ha
    refine { attempts := ?_, high := hd.high, offered := ?_, waited := hd.waited, blocked := ?_ }
    · show v.enqueueAttempts = (v.accepted ++ [item]).length + 0
      rw [List.length_append, ha]
      rfl
    · exact fun _ hb => by cases hb
    · exact fun hw => ⟨(hd.blocked hw).1, fun _ _ hb => by cases hb⟩
  | @blocks item hc hf =>
    rw [hc] at ha
    refine { attempts := ha, high := hd.high, offered := ?_, waited := ?_, blocked := ?_ }
    · exact fun _ hb => by cases hb
    · intro _
      have hfull := of_decide_eq_true hf
      exact ⟨hfull.1, Nat.le_trans hfull.2 (hd.offered item hc)⟩
    · exact fun hw => absurd hw (Nat.succ_ne_zero _)
  | @resumes item a hc hf =>
    rw [hc] at ha
    have hwait : v.waited ≠ 0 := fun h0 => (hd.blocked h0).2 item a hc
    refine { attempts := ?_, high := hd.high, offered := ?_, waited := hd.waited, blocked := ?_ }
    · show v.enqueueAttempts = (v.accepted ++ [item]).length + 0
      rw [List.length_append, ha]
      rfl
    · exact fun _ hb => by cases hb
    · exact fun h0 => absurd h0 hwait
  | stops hc =>
    rw [hc] at ha
    refine { attempts := ha, high := hd.high, offered := ?_, waited := hd.waited, blocked := ?_ }
    · exact fun _ hb => by cases hb
    · exact fun hw => ⟨(hd.blocked hw).1, fun _ _ hb => by cases hb⟩
  | seals hc hf =>
    rw [hc] at ha
    refine { attempts := ha, high := hd.high, offered := ?_, waited := hd.waited, blocked := ?_ }
    · exact fun _ hb => by cases hb
    · exact fun hw => ⟨(hd.blocked hw).1, fun _ _ hb => by cases hb⟩
  | leaves hx hc =>
    rw [hc] at ha
    refine { attempts := ha, high := hd.high, offered := ?_, waited := hd.waited, blocked := ?_ }
    · exact fun _ hb => by cases hb
    · exact fun hw => ⟨(hd.blocked hw).1, fun _ _ hb => by cases hb⟩
  | @takes item q hw hq =>
    refine { hd with offered := ?_ }
    intro it hc
    have hle := hd.offered it hc
    rw [hq] at hle
    exact Nat.le_trans (Nat.le_succ _) hle
  | @returns q hw hq =>
    refine { hd with offered := ?_ }
    intro it hc
    have hle := hd.offered it hc
    rw [hq] at hle
    exact Nat.le_trans (Nat.le_succ _) hle
  | @judges item a hw =>
    obtain ⟨hq, _, hcall, hacc, _, hcap⟩ := record_frame v now a item (verify item)
    obtain ⟨hatt, hhigh, hdep, hwait, hblk⟩ := record_depths v now a item (verify item)
    refine { attempts := ?_, high := ?_, offered := ?_, waited := ?_, blocked := ?_ }
    · rw [hatt, hacc, hcall]
      exact ha
    · rw [hhigh, hdep]
      exact hd.high
    · rw [hcall, hq, hhigh]
      exact hd.offered
    · rw [hwait, hcap, hhigh]
      exact hd.waited
    · rw [hwait, hblk, hcall]
      exact hd.blocked

/-- **Every step of the caller and of the thread keeps the invariant.** -/
theorem Sound.step (h : Sound verify v) (hs : v.step verify now x = some v') :
    Sound verify v' where
  order := h.order_step (step_moves hs)
  seals := h.seals_step (step_moves hs)
  counts := h.counts_step (step_moves hs)
  depths := h.depths_step (step_moves hs)

theorem sound_create (verify : Item ρ → Verdict) (capacity : Nat) :
    Sound verify { capacity := capacity } where
  order := rfl
  seals := ⟨[], rfl, fun h => by cases h⟩
  counts := ⟨rfl, rfl, rfl, rfl⟩
  depths :=
    { attempts := rfl
      high := rfl
      offered := fun _ h => by cases h
      waited := fun h => absurd rfl h
      blocked := fun _ => ⟨rfl, fun _ _ h => by cases h⟩ }

/-! ## what the counters show -/

/-- every item that the thread has judged was put into the queue -/
theorem Sound.judged_le (h : Sound verify v) : v.judged.length ≤ v.accepted.length := by
  rw [h.order, List.length_append, List.length_append, Nat.add_assoc]
  exact Nat.le_add_right _ _

/-- **The counters show that all of `n` items are right exactly when each was judged, and found
right.** -/
theorem Sound.all_right_iff (h : Sound verify v) {n : Nat} (hn : v.accepted.length ≤ n) :
    (v.verified = n ∧ v.invalid = 0 ∧ v.exception = none) ↔
      v.accepted.length = n ∧ v.judged = v.accepted ∧
        ∀ item ∈ v.judged, verify item = .right := by
  have hc := h.counts
  constructor
  · rintro ⟨hv, _, _⟩
    have hcount : v.judged.countP (fun item => (verify item).isRight) ≤ v.judged.length :=
      List.countP_le_length
    rw [← hc.verified, hv] at hcount
    have hle := h.judged_le
    have hall : v.judged.countP (fun item => (verify item).isRight) = v.judged.length := by
      rw [← hc.verified]
      omega
    have hlen : v.judged.length = v.accepted.length := by omega
    refine ⟨by omega, ?_, ?_⟩
    · have hsplit := h.order
      rw [List.append_assoc] at hsplit
      have hnil : v.worker.holds ++ v.queued = [] := by
        have hl := congrArg List.length hsplit
        rw [List.length_append] at hl
        exact List.eq_nil_of_length_eq_zero (by omega)
      rw [hsplit, hnil, List.append_nil]
    · intro item hmem
      have hright := List.countP_eq_length.mp hall item hmem
      cases hr : verify item with
      | right => rfl
      | wrong reasons =>
        rw [hr] at hright
        cases hright
      | raised text =>
        rw [hr] at hright
        cases hright
  · rintro ⟨hlen, hj, hall⟩
    refine ⟨?_, ?_, ?_⟩
    · rw [hc.verified, List.countP_eq_length.mpr, hj, hlen]
      intro item hmem
      rw [hall item hmem]
      rfl
    · rw [hc.invalid, List.filterMap_eq_nil_iff.mpr]
      · rfl
      · intro item hmem
        rw [hall item hmem]
        rfl
    · rw [hc.exception, List.filterMap_eq_nil_iff.mpr]
      · rfl
      · intro item hmem
        rw [hall item hmem]
        rfl

theorem foldl_max_lt {n : Nat} {l : List Nat} {a : Nat} :
    l.foldl max a < n ↔ a < n ∧ ∀ x ∈ l, x < n := by
  induction l generalizing a with
  | nil => simp
  | cons x l ih =>
    rw [List.foldl_cons, ih, List.forall_mem_cons, Nat.max_lt, and_assoc]

/-- the high-water mark is below the capacity when every `enqueue` saw the queue so -/
theorem Sound.high_lt_iff (h : Sound verify v) (hpos : 0 < v.capacity) :
    v.highWater < v.capacity ↔ ∀ d ∈ v.depths, d < v.capacity := by
  rw [h.depths.high, foldl_max_lt]
  exact ⟨fun hd => hd.2, fun hd => ⟨hpos, hd⟩⟩

/-- **A high-water mark below the capacity: no `enqueue` has waited.** -/
theorem Sound.unblocked (h : Sound verify v) (hlt : v.highWater < v.capacity) :
    v.waited = 0 ∧ v.enqueueBlockNs = 0 := by
  have hw : v.waited = 0 := by
    by_contra hne
    have hfull := (h.depths.waited hne).2
    omega
  exact ⟨hw, (h.depths.blocked hw).1⟩

/-- the thread has returned: every item was judged -/
theorem Sound.drained (h : Sound verify v) (hw : v.worker = .returned) : v.judged = v.accepted := by
  have hs := h.seals
  unfold Sealed at hs
  have hq : v.q = [] := by
    split at hs
    · rcases hs with ⟨_, hq⟩ | ⟨_, _, hne⟩
      · exact hq
      · exact absurd hw hne
    · obtain ⟨_, _, hne⟩ := hs
      exact absurd hw hne
  rw [h.order, hw, queued, hq]
  simp [Worker.holds]

end Verifier
end Throughput
end RayX
