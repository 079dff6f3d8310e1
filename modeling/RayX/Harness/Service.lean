import RayX.Lane.Token
import RayX.Lib.Prog

/-!
# The service of one request

`Request`, `Result` and `service` of `service_lane.hpp` and `hpx_lane.hpp`; the two lanes share the
token of `RayX.Lane.Token` under the name `CancelToken`.

* `Millis`              the doubles of a request, by the three things the service asks of them;
* `chunkLoop`           the active chunks, the parked gaps and the boundaries between them;
* `serviceBody`         the part of `service` inside the `try`;
* `serviceBody_polls`   **a supported request with a token polls before every chunk but the first**.
-/

namespace RayX
open Sys

namespace Harness

/-- a time in milliseconds: `/ n`, `> 0.0`, and the nanoseconds that a wait for it takes -/
class Millis (D : Type) where
  zero : D
  div : D → Int → D
  pos : D → Bool
  ns : D → Int

/-- whole milliseconds -/
instance : Millis Int where
  zero := 0
  div := fun ms n => ms / n
  pos := fun ms => decide (0 < ms)
  ns := fun ms => 1000000 * ms

section
variable {D : Type} [Millis D]

structure Request (D : Type) [Millis D] where
  requestId : String := ""
  serviceMsRequested : D := Millis.zero
  workMode : String := "sleep"
  submitNs : Int64 := 0
  chunks : Int := 1
  chunkDelayMs : D := Millis.zero

structure Result where
  requestId : String := ""
  actorId : String := ""
  submitNs : Int64 := 0
  startNs : Int64 := 0
  endNs : Int64 := 0
  enqueueNs : Int64 := 0
  queueDepthAtEnqueue : Int := 0
  status : Status := .completed
  error : String := ""
  chunksCompleted : Int := 0

abbrev CancelToken := Token

/-- the row that a queued cancel sets -/
def CancelToken.row (actorId : String) (submitNs now : Int64) : Result :=
  { actorId := actorId, submitNs := submitNs, startNs := now, endNs := now, status := .cancelled,
    chunksCompleted := 0 }

namespace Request

def isSleep (req : Request D) : Bool := req.workMode == "sleep"

def isSpin (req : Request D) : Bool := req.workMode == "spin"

/-- one of the two work modes -/
def Supported (req : Request D) : Prop := req.workMode = "sleep" ∨ req.workMode = "spin"

instance (req : Request D) : Decidable req.Supported := inferInstanceAs (Decidable (_ ∨ _))

/-- `n` of the service -/
def steps (req : Request D) : Int := if req.chunks < 1 then 1 else req.chunks

theorem steps_eq (req : Request D) : req.steps = max req.chunks 1 := by
  unfold steps
  split <;> omega

/-- the boundaries of a request are the ones that arm its token -/
theorem armed_iff (req : Request D) : 1 < req.chunks ↔ 0 < (req.steps - 1).toNat := by
  rw [steps_eq]
  omega

end Request

/-! ## the service -/

def sleepFor (ms : D) : Prog Unit String Unit := Prog.sleepFor (Millis.ns ms)

/-- the loop on the clock is a wait up to its deadline -/
def spinFor (ms : D) : Prog Unit String Unit := Prog.sleepFor (Millis.ns ms)

def activeWork (isSleep : Bool) (perChunkMs : D) : Prog Unit String Unit :=
  if Millis.pos perChunkMs then (if isSleep then sleepFor perChunkMs else spinFor perChunkMs)
  else pure ()

/-- the gap after chunk `c`, none after the last one -/
def parkedGap (req : Request D) (n c : Int) : Prog Unit String Unit :=
  if c + 1 < n ∧ Millis.pos req.chunkDelayMs = true then sleepFor req.chunkDelayMs else pure ()

/-- the loop from chunk `c` on, `left` chunks to go; `some c` when the lane stops before chunk `c` -/
def chunkLoop (req : Request D) (tok isSleep : Bool) (n : Int) (perChunkMs : D) :
    Nat → Int → Prog Unit String (Option Int)
  | 0, _ => pure none
  | left + 1, c =>
    if 0 < c ∧ tok = true then
      Prog.stop (c == n - 1) >>= fun stopped =>
        if stopped then pure (some c)
        else activeWork isSleep perChunkMs >>= fun _ => parkedGap req n c >>= fun _ =>
          chunkLoop req tok isSleep n perChunkMs left (c + 1)
    else activeWork isSleep perChunkMs >>= fun _ => parkedGap req n c >>= fun _ =>
      chunkLoop req tok isSleep n perChunkMs left (c + 1)

/-- inside the `try`; `tok` tells whether there is a token -/
def serviceBody (req : Request D) (tok : Bool) : Prog Unit String (Option Int) :=
  if !req.isSleep && !req.isSpin then .throw ("unsupported work_mode: " ++ req.workMode)
  else chunkLoop req tok req.isSleep req.steps (Millis.div req.serviceMsRequested req.steps)
    req.steps.toNat 0

/-- the row before the `try` -/
def startRow (req : Request D) (actorId : String) (now : Int64) : Result :=
  { requestId := req.requestId, actorId := actorId, submitNs := req.submitNs, startNs := now }

/-- the row after the `try`: all chunks ran, a boundary stopped them, or the `catch` -/
def outcomeRow (req : Request D) (r : Result) : Except String (Option Int) → Result
  | .ok none => { r with chunksCompleted := req.steps }
  | .ok (some c) => { r with status := .cancelled, chunksCompleted := c }
  | .error what => { r with status := .failed, error := what }

/-- `mark_completed()` stands behind the last chunk, inside the `try` -/
def markCompleted (t : CancelToken) : Except String (Option Int) → CancelToken
  | .ok none => t.markFinished
  | _ => t

/-! ## its polls -/

/-- all chunks ran -/
def ranAll (x : Except String (Option Int)) : Prop := x = .ok none

/-- a boundary with a chunk on either side -/
def stoppedWithin (n : Int) (x : Except String (Option Int)) : Prop :=
  ∃ c, x = .ok (some c) ∧ 1 ≤ c ∧ c ≤ n - 1

theorem activeWork_quiet (isSleep : Bool) (ms : D) :
    (activeWork isSleep ms).Quiet (fun x => x = .ok ()) := by
  unfold activeWork
  split
  · split <;> exact rfl
  · exact rfl

theorem parkedGap_quiet (req : Request D) (n c : Int) :
    (parkedGap req n c).Quiet (fun x => x = .ok ()) := by
  unfold parkedGap
  split <;> exact rfl

section
variable {req : Request D} {tok isSleep : Bool} {n : Int} {ms : D} {left : Nat} {c : Int}

/-- one chunk and its gap, then the rest -/
def oneChunk (req : Request D) (isSleep : Bool) (n : Int) (ms : D) (c : Int)
    (rest : Prog Unit String (Option Int)) : Prog Unit String (Option Int) :=
  activeWork isSleep ms >>= fun _ => parkedGap req n c >>= fun _ => rest

theorem oneChunk_polls {P S : Except String (Option Int) → Prop} {k : Nat}
    {rest : Prog Unit String (Option Int)} (h : rest.Polls P S k) :
    (oneChunk req isSleep n ms c rest).Polls P S k := by
  refine Prog.Quiet.bind_polls (activeWork_quiet isSleep ms) ?_ (fun _ he => nomatch he)
  intro _ _
  exact Prog.Quiet.bind_polls (parkedGap_quiet req n c) (fun _ _ => h) (fun _ he => nomatch he)

theorem oneChunk_quiet {P : Except String (Option Int) → Prop}
    {rest : Prog Unit String (Option Int)} (h : rest.Quiet P) :
    (oneChunk req isSleep n ms c rest).Quiet P := by
  refine Prog.Quiet.bind (activeWork_quiet isSleep ms) ?_ (fun _ he => nomatch he)
  intro _ _
  exact Prog.Quiet.bind (parkedGap_quiet req n c) (fun _ _ => h) (fun _ he => nomatch he)

theorem chunkLoop_boundary (hc : 0 < c) : chunkLoop req true isSleep n ms (left + 1) c =
    Prog.poll (c == n - 1) (fun stopped => if stopped then .ret (some c)
      else oneChunk req isSleep n ms c (chunkLoop req true isSleep n ms left (c + 1))) := by
  rw [chunkLoop, if_pos ⟨hc, rfl⟩]
  rfl

theorem chunkLoop_straight (h : ¬ (0 < c ∧ tok = true)) : chunkLoop req tok isSleep n ms (left + 1) c =
    oneChunk req isSleep n ms c (chunkLoop req tok isSleep n ms left (c + 1)) := by
  rw [chunkLoop, if_neg h]
  rfl

/-- with a token every chunk after the first has its poll, the last one with the final flag -/
theorem chunkLoop_polls (hc : 0 < c) (hn : c + left = n) :
    (chunkLoop req true isSleep n ms left c).Polls ranAll (stoppedWithin n) left := by
  induction left generalizing c with
  | zero => exact ⟨rfl, rfl⟩
  | succ left ih =>
    rw [chunkLoop_boundary hc]
    refine ⟨left, rfl, ?_, oneChunk_polls (ih (by omega) (by omega)), ?_⟩
    · rw [Bool.eq_iff_iff, beq_iff_eq, beq_iff_eq]
      omega
    · exact ⟨c, rfl, by omega, by omega⟩

/-- without a token there is no poll -/
theorem chunkLoop_quiet : (chunkLoop req false isSleep n ms left c).Quiet ranAll := by
  induction left generalizing c with
  | zero => exact rfl
  | succ left ih =>
    rw [chunkLoop_straight (fun h => Bool.false_ne_true h.2)]
    exact oneChunk_quiet ih

end

theorem serviceBody_supported {req : Request D} (h : req.Supported) (tok : Bool) :
    serviceBody req tok = chunkLoop req tok req.isSleep req.steps
      (Millis.div req.serviceMsRequested req.steps) req.steps.toNat 0 := by
  have hmode : (!req.isSleep && !req.isSpin) = false := by
    unfold Request.isSleep Request.isSpin
    rcases h with h | h <;> rw [h] <;> rfl
  rw [serviceBody, hmode]
  rfl

theorem serviceBody_unsupported {req : Request D} (h : ¬ req.Supported) (tok : Bool) :
    serviceBody req tok = .throw ("unsupported work_mode: " ++ req.workMode) := by
  have hmode : (!req.isSleep && !req.isSpin) = true := by
    simp only [Request.Supported, not_or] at h
    simp [Request.isSleep, Request.isSpin, h.1, h.2]
  rw [serviceBody, hmode]
  rfl

/-- **Polls of a service.** -/
theorem serviceBody_polls {req : Request D} (h : req.Supported) :
    (serviceBody req true).Polls ranAll (stoppedWithin req.steps) (req.steps - 1).toNat := by
  rw [serviceBody_supported h]
  have hpos : 1 ≤ req.steps := by
    rw [req.steps_eq]
    omega
  cases hn : req.steps.toNat with
  | zero => omega
  | succ left =>
    have hl : (req.steps - 1).toNat = left := by omega
    rw [hl, chunkLoop_straight (fun h => absurd h.1 (Int.lt_irrefl 0))]
    exact oneChunk_polls (chunkLoop_polls (by omega) (by omega))

theorem serviceBody_quiet {req : Request D} (h : req.Supported) :
    (serviceBody req false).Quiet ranAll := by
  rw [serviceBody_supported h]
  exact chunkLoop_quiet

/-! ## its end -/

namespace Request

/-- how the body of a request ends unless it is stopped -/
def Normal (req : Request D) (x : Except String (Option Int)) : Prop :=
  (req.Supported ∧ x = .ok none) ∨ (¬ req.Supported ∧ ∃ what, x = .error what)

/-- the row of a request that is not stopped -/
def NormalRow (req : Request D) (r : Result) : Prop :=
  (req.Supported ∧ r.status = .completed ∧ r.chunksCompleted = req.steps) ∨
    (¬ req.Supported ∧ r.status = .failed)

/-- the row of a request that stopped at a boundary -/
def StoppedRow (req : Request D) (r : Result) : Prop :=
  r.status = .cancelled ∧ 1 ≤ r.chunksCompleted ∧ r.chunksCompleted ≤ req.steps - 1

variable {req : Request D} {r : Result}

theorem NormalRow.status_ne (h : req.NormalRow r) : r.status ≠ .cancelled := by
  rcases h with ⟨_, h, _⟩ | ⟨_, h⟩
  · rw [h]
    exact Status.noConfusion
  · rw [h]
    exact Status.noConfusion

theorem Normal.row {x : Except String (Option Int)} (h : req.Normal x) (hr : r.status = .completed) :
    req.NormalRow (outcomeRow req r x) := by
  rcases h with ⟨hs, rfl⟩ | ⟨hs, what, rfl⟩
  · exact Or.inl ⟨hs, hr, rfl⟩
  · exact Or.inr ⟨hs, rfl⟩

theorem stoppedWithin_row {x : Except String (Option Int)} (h : stoppedWithin req.steps x) :
    req.StoppedRow (outcomeRow req r x) := by
  obtain ⟨c, rfl, h1, h2⟩ := h
  exact ⟨rfl, h1, h2⟩

end Request

/-- **Every armed boundary is a poll**, unless the work mode is unsupported and there are chunks. -/
theorem serviceBody_armed {req : Request D} (h : req.Supported ∨ req.chunks ≤ 1) :
    (serviceBody req true).Polls req.Normal (stoppedWithin req.steps) (req.steps - 1).toNat := by
  by_cases hs : req.Supported
  · refine (serviceBody_polls hs).mono ?_
    exact fun x hx => Or.inl ⟨hs, hx⟩
  · have hc := h.resolve_left hs
    have hn : (req.steps - 1).toNat = 0 := by
      rw [req.steps_eq]
      omega
    rw [serviceBody_unsupported hs, hn]
    exact ⟨rfl, Or.inr ⟨hs, _, rfl⟩⟩

theorem serviceBody_bare (req : Request D) : (serviceBody req false).Quiet req.Normal := by
  by_cases hs : req.Supported
  · exact (serviceBody_quiet hs).mono (fun x hx => Or.inl ⟨hs, hx⟩)
  · rw [serviceBody_unsupported hs]
    exact Or.inr ⟨hs, _, rfl⟩

end

end Harness

end RayX
