import RayX.Ops.Join

/-!
# The shared limit of the trace of `overlap_probe`

The trace of one call is bounded as a whole.  What that leaves to each arm depends on the number of chunk
events an arm pushes.

* `chunkTries`           the chunk events an arm pushes;
* `ArmPc.tried`          what an arm has pushed so far, counted by its place;
* `Quota`                the invariant: the trace holds all that was pushed while it has room, and an arm
                         whose leave event is in it has all its chunk events in it;
* `traceKept_iff`        **each arm keeps its events exactly where no arm pushes more than its quota**;
* `Overlap.completes`    a call can always come to its end.
-/

namespace RayX
open Sys

/-! ## what an arm pushes -/

section
variable (mode quantum : Int64)

/-- the chunk events an arm pushes: none in mode `0`, one before each chunk but the first in mode `1` -/
def chunkTries : Nat := if mode = 0 then 0 else nChunks quantum - 1

/-- one for a phase, none for the others -/
def TracePhase.one (p q : TracePhase) : Nat := if q = p then 1 else 0

/-- the events pushed before a call of `push_event` -/
def Site.tried : Site → TracePhase → Nat
  | .enter, _ => 0
  | .chunk _ _, .enter => 1
  | .chunk k _, .chunk => k - 1
  | .chunk _ _, .leave => 0
  | .leave _, .enter => 1
  | .leave _, .chunk => chunkTries mode quantum
  | .leave _, .leave => 0

/-- the events an arm has pushed -/
def ArmPc.tried : ArmPc → TracePhase → Nat
  | .queued, _ => 0
  | .stamps c _, q => c.tried mode quantum q
  | .pushes c _ _, q => c.tried mode quantum q
  | .notes c _, q => c.tried mode quantum q + c.phase.one q
  | .flies, q | .bumps _, q | .swaps _ _, q | .computes, q => TracePhase.enter.one q
  | .loops k acc, q => (Site.chunk k acc).tried mode quantum q
  | .adds k acc, q => (Site.chunk (k + 1) acc).tried mode quantum q
  | .lands v, q | .samples v, q => (Site.leave v).tried mode quantum q
  | .completes v, q | .returned v, q => (Site.leave v).tried mode quantum q + TracePhase.leave.one q

/-- all events an arm has pushed -/
def ArmPc.tries (pc : ArmPc) : Nat :=
  pc.tried mode quantum .enter + pc.tried mode quantum .chunk + pc.tried mode quantum .leave

end

section
variable {mode quantum x : Int64} {j : Nat} {wid : Int} {weak : Bool} {g g' : OverlapVars}
  {pc pc' : ArmPc}

theorem SumSoFar.tries {k : Nat} {acc : UInt64} (h : SumSoFar mode quantum k acc) :
    chunkTries mode quantum = nChunks quantum - 1 := if_neg h.1

theorem Site.tried_le {c : Site} (hok : c.Ok mode quantum x) :
    c.tried mode quantum .enter + c.tried mode quantum .chunk + c.tried mode quantum .leave
      ≤ 1 + chunkTries mode quantum := by
  cases c with
  | enter => exact Nat.zero_le _
  | chunk k acc =>
    obtain ⟨-, hk, hsum⟩ := hok
    have ht := hsum.tries
    show 1 + (k - 1) + 0 ≤ 1 + chunkTries mode quantum
    omega
  | leave v => exact Nat.le_refl _

theorem TracePhase.one_sum (p : TracePhase) :
    p.one .enter + p.one .chunk + p.one .leave = 1 := by
  cases p <;> rfl

/-- an arm pushes two events and its chunk events at most -/
theorem ArmPc.tries_le (hok : pc.Ok mode quantum x) :
    pc.tries mode quantum ≤ 2 + chunkTries mode quantum := by
  have hlast : (Site.leave 0).tried mode quantum .chunk = chunkTries mode quantum := rfl
  cases pc with
  | queued => exact Nat.zero_le _
  | stamps c wid =>
    have hc := Site.tried_le hok
    show c.tried mode quantum .enter + c.tried mode quantum .chunk + c.tried mode quantum .leave ≤ _
    omega
  | pushes c wid s =>
    have hc := Site.tried_le hok
    show c.tried mode quantum .enter + c.tried mode quantum .chunk + c.tried mode quantum .leave ≤ _
    omega
  | notes c s =>
    have hc := Site.tried_le hok
    have hone := TracePhase.one_sum c.phase
    show c.tried mode quantum .enter + c.phase.one .enter + (c.tried mode quantum .chunk +
      c.phase.one .chunk) + (c.tried mode quantum .leave + c.phase.one .leave) ≤ _
    omega
  | loops k acc =>
    obtain ⟨hk, hsum⟩ := hok
    have ht := hsum.tries
    show 1 + (k - 1) + 0 ≤ _
    omega
  | adds k acc =>
    obtain ⟨hk, hsum⟩ := hok
    have ht := hsum.tries
    show 1 + k + 0 ≤ _
    omega
  | lands v =>
    show 1 + chunkTries mode quantum + 0 ≤ _
    omega
  | samples v =>
    show 1 + chunkTries mode quantum + 0 ≤ _
    omega
  | completes v =>
    show 1 + 0 + (chunkTries mode quantum + 0) + (0 + 1) ≤ _
    omega
  | returned v =>
    show 1 + 0 + (chunkTries mode quantum + 0) + (0 + 1) ≤ _
    omega
  | _ =>
    show 1 + 0 + 0 ≤ _
    omega

/-- what a step of an arm does to what the arm has pushed -/
inductive PushMove (mode quantum : Int64) (pc pc' : ArmPc) : Prop
  | rests (hno : ∀ c wid s, pc ≠ .pushes c wid s)
      (h : ∀ q, pc'.tried mode quantum q = pc.tried mode quantum q)
  | pushes (c : Site) (wid : Int) (s : Nat) (hpc : pc = .pushes c wid s)
      (h : ∀ q, pc'.tried mode quantum q = pc.tried mode quantum q + c.phase.one q)

theorem ArmMove.push (h : ArmMove mode quantum j x wid g pc g' pc') (hok : pc.Ok mode quantum x) :
    PushMove mode quantum pc pc' := by
  cases h with
  | pushes c w s => exact .pushes c w s rfl (fun _ => rfl)
  | notes c s =>
    refine .rests (fun _ _ _ hc => by cases hc) ?_
    intro q
    cases c with
    | enter => exact (Nat.zero_add _).symm
    | chunk k acc =>
      have hk := hok.1
      cases q with
      | enter => rfl
      | leave => rfl
      | chunk =>
        show k + 1 - 1 = k - 1 + 1
        omega
    | leave v => rfl
  | flat hmode =>
    refine .rests (fun _ _ _ hc => by cases hc) ?_
    have ht : chunkTries mode quantum = 0 := if_pos hmode
    intro q
    cases q with
    | enter => rfl
    | leave => rfl
    | chunk => exact ht
  | sums k acc hk =>
    refine .rests (fun _ _ _ hc => by cases hc) ?_
    have ht := hok.2.tries
    have hle := hok.1
    intro q
    cases q with
    | enter => rfl
    | leave => rfl
    | chunk =>
      show chunkTries mode quantum = k - 1
      omega
  | chunked => exact .rests (fun _ _ _ hc => by cases hc) (fun q => by cases q <;> rfl)
  | first => exact .rests (fun _ _ _ hc => by cases hc) (fun q => by cases q <;> rfl)
  | adds => exact .rests (fun _ _ _ hc => by cases hc) (fun q => by cases q <;> rfl)
  | _ => exact .rests (fun _ _ _ hc => by cases hc) (fun _ => rfl)

end

/-! ## what the trace holds -/

/-- the events of an arm and a phase in the trace -/
def recorded (events : List OverlapEvent) (j : Nat) (q : TracePhase) : Nat :=
  events.countP fun e => decide (e.armId = j ∧ e.phase = q)

theorem recorded_append (events : List OverlapEvent) (i : Nat) (p : TracePhase) (k : Nat) (wid : Int)
    (j : Nat) (q : TracePhase) : recorded (events ++ [⟨i, p, k, wid⟩]) j q
      = recorded events j q + if j = i then p.one q else 0 := by
  rw [recorded, List.countP_append, List.countP_singleton]
  congr 1
  by_cases hj : j = i
  · rw [if_pos hj, TracePhase.one]
    by_cases hq : q = p
    · rw [if_pos hq, if_pos (decide_eq_true ⟨hj.symm, hq.symm⟩)]
    · rw [if_neg hq, if_neg (by simp [Ne.symm hq])]
  · rw [if_neg hj, if_neg (by simp [Ne.symm hj])]

theorem recorded_pos {events : List OverlapEvent} {j : Nat} {q : TracePhase} :
    0 < recorded events j q ↔ ∃ e ∈ events, e.armId = j ∧ e.phase = q := by
  rw [recorded, List.countP_pos_iff]
  simp only [decide_eq_true_eq]

/-- no arm pushes more chunk events than its quota -/
def WithinQuota (mode quantum : Int64) : Prop := chunkTries mode quantum ≤ overlapChunkEventsCap

structure Quota (seed mode quantum : Int64) (s : Overlap) : Prop where
  ok : ∀ j, (s.arm j).Ok mode quantum (Overlap.input seed j)
  le : ∀ j q, recorded s.vars.w.events j q ≤ (s.arm j).tried mode quantum q
  length : s.vars.w.events.length ≤ total (ArmPc.tries mode quantum) s.arm overlapArms
  /-- nothing was left out so far -/
  all : s.vars.w.events.length < OverlapWitness.eventsCap ∨ WithinQuota mode quantum →
    ∀ j q, recorded s.vars.w.events j q = (s.arm j).tried mode quantum q
  left : ∀ j, 0 < recorded s.vars.w.events j .leave →
    recorded s.vars.w.events j .chunk = chunkTries mode quantum

section
variable {seed quantum mode : Int64} {s s' : Overlap}

theorem quota_init (seed mode quantum : Int64) : Quota seed mode quantum (Overlap.init mode) where
  ok _ := trivial
  le _ _ := Nat.le_refl 0
  length := Nat.zero_le _
  all _ _ _ := rfl
  left _ h := absurd h (Nat.lt_irrefl 0)

/-- within the quota there is room for an arm that comes to push an event -/
theorem Quota.room (h : Quota seed mode quantum s) (hq : WithinQuota mode quantum) {j : Nat}
    (hj : j < overlapArms) {c : Site} {wid : Int} {k : Nat} (hpc : s.arm j = .pushes c wid k) :
    s.vars.w.events.length < OverlapWitness.eventsCap := by
  have hlen := h.length
  have hone : (s.arm j).tries mode quantum ≤ 1 + chunkTries mode quantum := by
    have hok := h.ok j
    rw [hpc] at hok
    rw [hpc]
    exact Site.tried_le hok
  have hzero := ArmPc.tries_le (h.ok 0)
  have hlast := ArmPc.tries_le (h.ok 1)
  have hcap : OverlapWitness.eventsCap = 20 := rfl
  have hsum : total (ArmPc.tries mode quantum) s.arm overlapArms
      = 0 + (s.arm 0).tries mode quantum + (s.arm 1).tries mode quantum := rfl
  have hquota : chunkTries mode quantum ≤ 8 := hq
  have harms : j = 0 ∨ j = 1 := by
    have : j < 2 := hj
    omega
  rcases harms with rfl | rfl <;> omega

/-- a step that pushes nothing -/
theorem Quota.rests (h : Quota seed mode quantum s) {j : Nat} {g : OverlapVars} {pc : ArmPc}
    (hok : pc.Ok mode quantum (Overlap.input seed j)) (hevents : g.w.events = s.vars.w.events)
    (hj : j < overlapArms)
    (hpc : ∀ q, pc.tried mode quantum q = (s.arm j).tried mode quantum q) :
    Quota seed mode quantum { s with vars := g, arm := Function.update s.arm j pc } := by
  have htried : ∀ i q, (Function.update s.arm j pc i).tried mode quantum q
      = (s.arm i).tried mode quantum q := by
    intro i q
    by_cases hi : i = j
    · rw [hi, Function.update_self]
      exact hpc q
    · rw [Function.update_of_ne hi]
  have htries : pc.tries mode quantum = (s.arm j).tries mode quantum := by
    rw [ArmPc.tries, ArmPc.tries, hpc, hpc, hpc]
  have hsum := total_update (w := ArmPc.tries mode quantum) (f := s.arm) hj pc
  refine ⟨?_, ?_, ?_, ?_, ?_⟩
  · exact update_all (P := fun j => ArmPc.Ok mode quantum (Overlap.input seed j)) h.ok hok
  · intro i q
    rw [htried, hevents]
    exact h.le i q
  · show g.w.events.length ≤ total _ (Function.update s.arm j pc) overlapArms
    rw [hevents]
    have hlen := h.length
    omega
  · intro hroom i q
    rw [htried, hevents]
    rw [hevents] at hroom
    exact h.all hroom i q
  · intro i
    rw [hevents]
    exact h.left i

/-- an event that finds room -/
theorem Quota.records (h : Quota seed mode quantum s) {j : Nat} {c : Site} {wid : Int} {k : Nat}
    (hpush : s.arm j = .pushes c wid k) (hj : j < overlapArms) {g : OverlapVars} {pc : ArmPc}
    (hok : pc.Ok mode quantum (Overlap.input seed j))
    (hevents : g.w.events = s.vars.w.events ++ [⟨j, c.phase, k, wid⟩])
    (hroom : s.vars.w.events.length < OverlapWitness.eventsCap)
    (hpc : ∀ q, pc.tried mode quantum q = (s.arm j).tried mode quantum q + c.phase.one q) :
    Quota seed mode quantum { s with vars := g, arm := Function.update s.arm j pc } := by
  have htried : ∀ i q, (Function.update s.arm j pc i).tried mode quantum q
      = (s.arm i).tried mode quantum q + if i = j then c.phase.one q else 0 := by
    intro i q
    by_cases hi : i = j
    · rw [hi, Function.update_self, if_pos rfl]
      exact hpc q
    · rw [Function.update_of_ne hi, if_neg hi]
      rfl
  have htries : pc.tries mode quantum = (s.arm j).tries mode quantum + 1 := by
    have hone := TracePhase.one_sum c.phase
    rw [ArmPc.tries, ArmPc.tries, hpc, hpc, hpc]
    omega
  have hsum := total_update (w := ArmPc.tries mode quantum) (f := s.arm) hj pc
  have hall := h.all (Or.inl hroom)
  refine ⟨?_, ?_, ?_, ?_, ?_⟩
  · exact update_all (P := fun j => ArmPc.Ok mode quantum (Overlap.input seed j)) h.ok hok
  · intro i q
    rw [htried, hevents, recorded_append]
    exact Nat.add_le_add_right (h.le i q) _
  · show g.w.events.length ≤ total _ (Function.update s.arm j pc) overlapArms
    rw [hevents, List.length_append, List.length_singleton]
    have hlen := h.length
    omega
  · intro _ i q
    rw [htried, hevents, recorded_append, hall]
  · -- the arm that leaves has pushed all its chunk events, and one that has left pushes none
    intro i hi
    rw [hevents, recorded_append] at hi
    rw [hevents, recorded_append]
    by_cases hij : i = j
    · rw [if_pos hij] at hi
      rw [if_pos hij]
      rw [hall, hij, hpush] at hi
      rw [hall, hij, hpush]
      cases c with
      | enter => exact absurd hi (Nat.lt_irrefl 0)
      | chunk n acc => exact absurd hi (Nat.lt_irrefl 0)
      | leave v => rfl
    · rw [if_neg hij] at hi
      rw [if_neg hij]
      exact h.left i hi

/-- an event that finds no room -/
theorem Quota.drops (h : Quota seed mode quantum s) {j : Nat} {c : Site} {wid : Int} {k : Nat}
    (hpush : s.arm j = .pushes c wid k) (hj : j < overlapArms) {g : OverlapVars} {pc : ArmPc}
    (hok : pc.Ok mode quantum (Overlap.input seed j)) (hevents : g.w.events = s.vars.w.events)
    (hfull : ¬ s.vars.w.events.length < OverlapWitness.eventsCap)
    (hpc : ∀ q, pc.tried mode quantum q = (s.arm j).tried mode quantum q + c.phase.one q) :
    Quota seed mode quantum { s with vars := g, arm := Function.update s.arm j pc } := by
  have hmore : ∀ i q, (s.arm i).tried mode quantum q
      ≤ (Function.update s.arm j pc i).tried mode quantum q := by
    intro i q
    by_cases hi : i = j
    · rw [hi, Function.update_self, hpc]
      exact Nat.le_add_right _ _
    · rw [Function.update_of_ne hi]
  have htries : (s.arm j).tries mode quantum ≤ pc.tries mode quantum := by
    rw [ArmPc.tries, ArmPc.tries, hpc, hpc, hpc]
    omega
  have hsum := total_update (w := ArmPc.tries mode quantum) (f := s.arm) hj pc
  refine ⟨?_, ?_, ?_, ?_, ?_⟩
  · exact update_all (P := fun j => ArmPc.Ok mode quantum (Overlap.input seed j)) h.ok hok
  · intro i q
    rw [hevents]
    exact Nat.le_trans (h.le i q) (hmore i q)
  · show g.w.events.length ≤ total _ (Function.update s.arm j pc) overlapArms
    rw [hevents]
    have hlen := h.length
    omega
  · intro hroom
    rw [hevents] at hroom
    rcases hroom with hroom | hquota
    · exact absurd hroom hfull
    · exact absurd (h.room hquota hj hpush) hfull
  · intro i
    rw [hevents]
    exact h.left i

theorem quota_step (hI : Overlap.Inv s) (h : Quota seed mode quantum s) {a : Overlap.Act}
    (hs : Overlap.step seed quantum mode s a = some s') : Quota seed mode quantum s' := by
  cases a with
  | main osWorkers =>
    -- the body moves neither the arms nor the trace
    cases Overlap.mainStep_move hs <;> exact ⟨h.ok, h.le, h.length, h.all, h.left⟩
  | arm j wid weak =>
    obtain ⟨hlaunched, g, pc, hstep, rfl⟩ := Overlap.step_arm hs
    have hj : j < overlapArms := Nat.lt_of_lt_of_le hlaunched hI.launched
    have hok := (armStep_move hstep).ok (h.ok j)
    have hmove := (armStep_move hstep).trace
    cases (armStep_move hstep).push (h.ok j) with
    | rests hno hpc =>
      refine h.rests hok ?_ hj hpc
      generalize s.arm j = p at hmove hno
      cases hmove with
      | rests _ _ _ _ _ _ hevents => exact hevents
      | stamps c w => rfl
      | pushes c w k => exact absurd rfl (hno c w k)
    | pushes c w k hpush hpc =>
      rw [hpush] at hmove
      cases hmove with
      | rests _ _ _ hheld => cases hheld
      | pushes _ _ _ =>
        by_cases hroom : s.vars.w.events.length < OverlapWitness.eventsCap
        · refine h.records hpush hj hok ?_ hroom hpc
          show (s.vars.w.append _).events = _
          rw [OverlapWitness.append, if_pos hroom]
        · refine h.drops hpush hj hok ?_ hroom hpc
          show (s.vars.w.append _).events = _
          rw [OverlapWitness.append, if_neg hroom]

theorem quota_run {as : List Overlap.Act}
    (hr : run (Overlap.step seed quantum mode) (Overlap.init mode) as = some s) :
    Quota seed mode quantum s := by
  have hstep : ∀ s a s', Overlap.Inv s ∧ Quota seed mode quantum s →
      Overlap.step seed quantum mode s a = some s' → Overlap.Inv s' ∧ Quota seed mode quantum s' :=
    fun _ _ _ h hs => ⟨Overlap.inv_step h.1 hs, quota_step h.1 h.2 hs⟩
  exact (run_inv hstep hr ⟨Overlap.inv_init mode, quota_init seed mode quantum⟩).2

/-- each arm has its two events in the trace, and no more chunk events than its quota -/
def TraceKept (events : List OverlapEvent) : Prop :=
  ∀ j < overlapArms, (∃ e ∈ events, e.armId = j ∧ e.phase = .enter) ∧
    (∃ e ∈ events, e.armId = j ∧ e.phase = .leave) ∧ recorded events j .chunk ≤ overlapChunkEventsCap

theorem kept_iff_withinQuota {as : List Overlap.Act} {w : OverlapWitness}
    (hr : run (Overlap.step seed quantum mode) (Overlap.init mode) as = some s)
    (hw : s.witness = some w) : TraceKept w.events ↔ WithinQuota mode quantum := by
  obtain ⟨hevents, hret⟩ := Overlap.witness_events hr hw
  have h := quota_run hr
  rw [hevents]
  constructor
  · -- an arm whose leave event is there has all its chunk events there
    intro hkept
    obtain ⟨-, hleave, hchunk⟩ := hkept 0 (Nat.zero_lt_two)
    rw [h.left 0 (recorded_pos.mpr hleave)] at hchunk
    exact hchunk
  · intro hquota j hj
    obtain ⟨v, hv⟩ := hret j hj
    have hall := h.all (Or.inr hquota) j
    rw [hv] at hall
    refine ⟨recorded_pos.mp ?_, recorded_pos.mp ?_, ?_⟩
    · rw [hall]
      exact Nat.zero_lt_one
    · rw [hall]
      exact Nat.zero_lt_one
    · rw [hall]
      exact hquota

end

/-- nine chunks leave eight chunk events -/
theorem withinQuota_iff (mode quantum : Int64) :
    WithinQuota mode quantum ↔ mode = 0 ∨ quantum ≤ 73728 := by
  have hcap : overlapChunkEventsCap = 8 := rfl
  have hlast : quantum ≤ 73728 ↔ quantum.toInt ≤ 73728 := Int64.le_iff_toInt_le
  rw [WithinQuota, chunkTries, hcap]
  by_cases hmode : mode = 0
  · rw [if_pos hmode]
    exact ⟨fun _ => Or.inl hmode, fun _ => Nat.zero_le 8⟩
  · rw [if_neg hmode, or_iff_right hmode, hlast, nChunks]
    by_cases hq : 0 ≤ quantum.toInt
    · rw [busySumCheckpoints_eq hq]
      omega
    · -- a negative quantum is one chunk
      have hle : quantum ≤ busySumStride := by
        rw [Int64.le_iff_toInt_le, stride_toInt]
        omega
      have hone : busySumCheckpoints quantum = 1 := if_pos hle
      rw [hone]
      omega

/-- **The trace keeps what the quotas promise exactly where no arm has more than nine chunks to do.** -/
theorem traceKept_iff {seed quantum mode : Int64} {as : List Overlap.Act} {s : Overlap}
    {w : OverlapWitness} (hr : run (Overlap.step seed quantum mode) (Overlap.init mode) as = some s)
    (hw : s.witness = some w) : TraceKept w.events ↔ mode = 0 ∨ quantum ≤ 73728 := by
  rw [kept_iff_withinQuota hr hw, withinQuota_iff]

theorem traceKept_iff_inTurn : ∃ s w, run (Overlap.step 0 0 0) (Overlap.init 0) Overlap.inTurn = some s ∧
    s.witness = some w ∧ (TraceKept w.events ↔ (0 : Int64) = 0 ∨ (0 : Int64) ≤ 73728) :=
  ⟨_, _, rfl, rfl,
    traceKept_iff (rfl : run (Overlap.step 0 0 0) (Overlap.init 0) Overlap.inTurn = some _) rfl⟩

/-- the largest quantum leaves the arms twelve chunk events each -/
theorem trace_displaced : ¬ ∀ (seed quantum mode : Int64) (as : List Overlap.Act) (s : Overlap)
    (w : OverlapWitness), 0 ≤ quantum → quantum ≤ chainQuantumMax → (mode = 0 ∨ mode = 1) →
    run (Overlap.step seed quantum mode) (Overlap.init mode) as = some s → s.witness = some w →
    TraceKept w.events := by
  intro h
  obtain ⟨as, s, w, hr, hw⟩ := Overlap.exists_complete 0 chainQuantumMax 1
  have hkept := h 0 chainQuantumMax 1 as s w (by decide) (Int64.le_refl _) (Or.inr rfl) hr hw
  have hquota := (withinQuota_iff 1 chainQuantumMax).mp ((kept_iff_withinQuota hr hw).mp hkept)
  exact absurd hquota (by decide)

end RayX
