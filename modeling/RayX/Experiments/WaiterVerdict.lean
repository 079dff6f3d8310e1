import RayX.Experiments.WaiterFix

/-!
# What the verdict of the waiter fix says

* `CallIs`, `ClaimsShow`, `ControlsPass`   what a run needs in its calls for a class, and in its control
                      cells to pass;
* `passed_iff`, `masterClass_iff`   the two forms in which a run carries its result;
* `verdict_iff`       the artifacts that get the verdict `waiter_resumed_on_ready`: the class of a master
                      run counts, its flag does not;
* `verdict_passed_iff`   every run passed then, unless a master run has a control cell that failed;
* `Sound`             what the verdict is to mean: every run as its expectation has it;
* `verdict_sound_iff` **the verdict means it exactly where the calls that give it come with both control
                      modes, all passing, in every run.**
-/

namespace RayX
namespace WaiterFix
open Sys

/-! ## what the classes say -/

section
variable {cls : WaitClass}

/-- a class that calls have, and no list of calls has otherwise -/
def WaitClass.Signature (cls : WaitClass) : Prop :=
  cls = .waiterResumeAtTimeout ∨ cls = .waiterResumedOnReady

theorem WaitClass.Signature.ne (h : cls.Signature) :
    cls ≠ .invalidInstrumentation ∧ cls ≠ .mixedResult ∧ cls ≠ .controlNotReproduced := by
  rcases h with rfl | rfl <;> exact ⟨by decide, by decide, by decide⟩

theorem Expectation.wanted_signature (e : Expectation) : e.wanted.Signature := by
  cases e with
  | controlV111 => exact Or.inl rfl
  | masterFix => exact Or.inr rfl

theorem cellClass_iff (h : cls.Signature) (perCall : List CallClass) :
    cellClass perCall = cls ↔ perCall ≠ [] ∧ ∀ p ∈ perCall, p.classification = cls := by
  obtain ⟨hinvalid, hmixed, -⟩ := h.ne
  have hone := sortedSet_one (fun a b : WaitClass => a.name ≤ b.name)
    (l := perCall.map CallClass.classification) (x := cls)
  rw [List.forall_mem_map, ne_eq, List.map_eq_nil_iff] at hone
  unfold cellClass
  split
  · refine ⟨fun hc => absurd hc.symm hinvalid, fun hc => absurd rfl hc.1⟩
  · rename_i cls' _ hset
    rw [classSet] at hset
    rw [← ne_eq] at hone
    rw [← hone, hset, List.cons.injEq]
    exact ⟨fun hc => ⟨hc, rfl⟩, fun hc => hc.1⟩
  · rename_i hnone
    refine ⟨fun hc => absurd hc.symm hmixed, fun hc => ?_⟩
    exact absurd (hone.mpr hc) (hnone cls)

theorem runClass_iff (h : cls.Signature) (cells : List Exp64Cell) :
    runClass cells = cls ↔ bothClaimModesPresent cells = true ∧ claimCells cells ≠ [] ∧
      ∀ c ∈ claimCells cells, c.classification = cls := by
  obtain ⟨hinvalid, hmixed, -⟩ := h.ne
  have hone := sortedSet_one (fun a b : WaitClass => a.name ≤ b.name)
    (l := (claimCells cells).map Exp64Cell.classification) (x := cls)
  rw [List.forall_mem_map, ne_eq, List.map_eq_nil_iff, ← ne_eq] at hone
  unfold runClass
  by_cases hmodes : ((claimCells cells).isEmpty || !bothClaimModesPresent cells) = true
  · rw [if_pos hmodes]
    refine ⟨fun hc => absurd hc.symm hinvalid, ?_⟩
    rintro ⟨hboth, hne, -⟩
    rw [hboth] at hmodes
    simp [hne] at hmodes
  · rw [if_neg hmodes]
    rw [Bool.not_eq_true, Bool.or_eq_false_iff, Bool.not_eq_false'] at hmodes
    rw [← hone]
    split
    · rename_i cls' hset
      rw [classSet] at hset
      rw [hset, List.cons.injEq]
      exact ⟨fun hc => ⟨hmodes.2, hc, rfl⟩, fun hc => hc.2.1⟩
    · rename_i hnone
      exact ⟨fun hc => absurd hc.symm hmixed, fun hc => absurd hc.2 (hnone cls)⟩

end

/-- the classes of the master runs decide, a flag that is down changes nothing -/
theorem finalVerdict_iff {e : RunEval} {ms : List RunEval}
    (hms : ∀ m ∈ ms, m.passed = true → m.runClassification = .waiterResumedOnReady) :
    finalVerdict e ms = .waiterResumedOnReady ↔ e.passed = true ∧ ms ≠ [] ∧
      ∀ m ∈ ms, m.runClassification = .waiterResumedOnReady := by
  have hone := sortedSet_one (fun a b : WaitClass => a.name ≤ b.name)
    (l := ms.map RunEval.runClassification) (x := .waiterResumedOnReady)
  rw [List.forall_mem_map, ne_eq, List.map_eq_nil_iff, ← ne_eq] at hone
  constructor
  · intro h
    unfold finalVerdict at h
    dsimp only at h
    split_ifs at h with hpassed hempty hinvalid hmany hall
    · have hne : ms ≠ [] := fun hnil => hempty (List.isEmpty_iff.mpr hnil)
      refine ⟨by simpa using hpassed, hne, fun m hm => hms m hm ?_⟩
      exact List.all_eq_true.mp hall m hm
    · rw [not_lt] at hmany
      -- at most one class is left, and it is the verdict
      split at h
      · rename_i cls rest hset
        rw [hset, List.length_cons] at hmany
        have hrest : rest = [] := List.eq_nil_of_length_eq_zero (by omega)
        have hcls : cls = .waiterResumedOnReady := by
          by_cases hv : cls ∈ vocabulary
          · rwa [if_pos hv] at h
          · rw [if_neg hv] at h
            cases h
        rw [hrest, hcls, classSet] at hset
        exact ⟨by simpa using hpassed, hone.mp hset⟩
      · cases h
  · rintro ⟨hpassed, hne, hready⟩
    have hset : classSet (ms.map RunEval.runClassification) = [.waiterResumedOnReady] :=
      hone.mpr ⟨hne, hready⟩
    have hvalid : ms.any (fun m => decide (m.runClassification = .invalidInstrumentation)) = false := by
      rw [List.any_eq_false]
      intro m hm
      rw [hready m hm]
      decide
    unfold finalVerdict
    simp [hpassed, hne, hset, hvalid, vocabulary]

/-! ## calls and cells -/

section
variable {cls : WaitClass} {a : Exp64Artifact} {c : Exp64Cell}

/-- the call has the class -/
def CallIs (cls : WaitClass) (timeoutS : Float) (call : Exp64Call) : Prop :=
  ∃ p, classifyExp64Call call timeoutS = .ok p ∧ p.classification = cls

/-- the calls of the artifact, of which there is one at least, have the class -/
def CallsAre (cls : WaitClass) (a : Exp64Artifact) : Prop :=
  a.callList ≠ [] ∧ ∀ call ∈ a.callList, CallIs cls a.timeoutS call

theorem cell_kept (h : classifyExp64Cell a = .ok c) :
    c.mode = a.readinessComposition ∧ c.isClaimMode = a.isClaimMode := by
  unfold classifyExp64Cell at h
  dsimp only at h
  split at h
  · cases h
    exact ⟨rfl, rfl⟩
  · obtain ⟨perCall, -, hc⟩ := bind_ok_iff.mp h
    cases hc
    exact ⟨rfl, rfl⟩

theorem cell_control (h : classifyExp64Cell a = .ok c) (hcontrol : a.isClaimMode = false) :
    c.controlOverallPass = some (a.overallPass.getD false) := by
  unfold classifyExp64Cell at h
  rw [hcontrol] at h
  cases h
  rfl

theorem cell_claim (h : classifyExp64Cell a = .ok c) (hclaim : a.isClaimMode = true) :
    ∃ perCall, a.callList.mapM (fun call => classifyExp64Call call a.timeoutS) = .ok perCall ∧
      c.classification = cellClass perCall := by
  unfold classifyExp64Cell at h
  rw [hclaim] at h
  obtain ⟨perCall, hcalls, hc⟩ := bind_ok_iff.mp h
  cases hc
  exact ⟨perCall, hcalls, rfl⟩

/-- the class of a claim cell is that of its calls -/
theorem cell_class_iff (hcls : cls.Signature) (h : classifyExp64Cell a = .ok c)
    (hclaim : a.isClaimMode = true) : c.classification = cls ↔ CallsAre cls a := by
  obtain ⟨perCall, hcalls, hclass⟩ := cell_claim h hclaim
  obtain ⟨hto, hfrom⟩ := mapM_mem hcalls
  rw [hclass, cellClass_iff hcls]
  constructor
  · rintro ⟨hne, hall⟩
    constructor
    · intro hnil
      rw [hnil] at hcalls
      cases hcalls
      exact hne rfl
    · intro call hcall
      obtain ⟨p, hp, heq⟩ := hto call hcall
      exact ⟨p, heq, hall p hp⟩
  · rintro ⟨hne, hall⟩
    obtain ⟨call, hcall⟩ := List.exists_mem_of_ne_nil _ hne
    obtain ⟨p, hp, -⟩ := hto call hcall
    refine ⟨List.ne_nil_of_mem hp, fun q hq => ?_⟩
    obtain ⟨call', hcall', heq⟩ := hfrom q hq
    obtain ⟨q', heq', hclass'⟩ := hall call' hcall'
    rw [heq] at heq'
    cases heq'
    exact hclass'

theorem cell_total (h : a.isClaimMode = true → CallsAre cls a) :
    ∃ c, classifyExp64Cell a = .ok c := by
  unfold classifyExp64Cell
  cases hclaim : a.isClaimMode with
  | false => exact ⟨_, rfl⟩
  | true =>
    obtain ⟨perCall, hcalls⟩ := mapM_total (f := fun call => classifyExp64Call call a.timeoutS)
      fun call hcall => ((h hclaim).2 call hcall).imp fun _ hp => hp.1
    dsimp only
    rw [hcalls]
    exact ⟨_, rfl⟩

end

/-! ## runs -/

section
variable {cls : WaitClass} {artifacts : List Exp64Artifact} {cells : List Exp64Cell}

/-- both claim modes are there, and every call of every claim cell has the class -/
def ClaimsShow (cls : WaitClass) (artifacts : List Exp64Artifact) : Prop :=
  (∀ mode ∈ claimModes, ∃ a ∈ artifacts, a.readinessComposition = some mode) ∧
    ∀ a ∈ artifacts, a.isClaimMode = true → CallsAre cls a

/-- a control cell is there, and each of them passed -/
def ControlsPass (artifacts : List Exp64Artifact) : Prop :=
  (∃ a ∈ artifacts, a.isClaimMode = false) ∧
    ∀ a ∈ artifacts, a.isClaimMode = false → a.overallPass = some true

theorem cells_total (h : ClaimsShow cls artifacts) :
    ∃ cells, artifacts.mapM classifyExp64Cell = .ok cells :=
  mapM_total fun a ha => cell_total (h.2 a ha)

theorem bothModes_iff (h : artifacts.mapM classifyExp64Cell = .ok cells) :
    bothClaimModesPresent cells = true ↔
      ∀ mode ∈ claimModes, ∃ a ∈ artifacts, a.readinessComposition = some mode := by
  obtain ⟨hto, hfrom⟩ := mapM_mem h
  rw [bothClaimModesPresent, decide_eq_true_eq, sortedSet_eq_iff]
  simp only [List.mem_filterMap, claimCells, List.mem_filter]
  constructor
  · intro hmodes mode hmode
    obtain ⟨c, ⟨hc, -⟩, heq⟩ := (hmodes mode).mpr hmode
    obtain ⟨a, ha, hcell⟩ := hfrom c hc
    exact ⟨a, ha, (cell_kept hcell).1.symm.trans heq⟩
  · intro hmodes mode
    constructor
    · rintro ⟨c, ⟨hc, hclaim⟩, heq⟩
      obtain ⟨a, ha, hcell⟩ := hfrom c hc
      obtain ⟨hmode, hkept⟩ := cell_kept hcell
      rw [hkept, Exp64Artifact.isClaimMode, ← hmode, heq] at hclaim
      exact List.contains_iff_mem.mp hclaim
    · intro hmode
      obtain ⟨a, ha, heq⟩ := hmodes mode hmode
      obtain ⟨c, hc, hcell⟩ := hto a ha
      obtain ⟨hkept, hclaim⟩ := cell_kept hcell
      refine ⟨c, ⟨hc, ?_⟩, hkept.trans heq⟩
      rw [hclaim, Exp64Artifact.isClaimMode, heq]
      exact List.contains_iff_mem.mpr hmode

theorem runClass_shows (hcls : cls.Signature) (h : artifacts.mapM classifyExp64Cell = .ok cells) :
    runClass cells = cls ↔ ClaimsShow cls artifacts := by
  obtain ⟨hto, hfrom⟩ := mapM_mem h
  rw [runClass_iff hcls, bothModes_iff h]
  constructor
  · rintro ⟨hmodes, -, hall⟩
    refine ⟨hmodes, fun a ha hclaim => ?_⟩
    obtain ⟨c, hc, hcell⟩ := hto a ha
    have hmem : c ∈ claimCells cells :=
      List.mem_filter.mpr ⟨hc, (cell_kept hcell).2.trans hclaim⟩
    exact (cell_class_iff hcls hcell hclaim).mp (hall c hmem)
  · rintro ⟨hmodes, hcalls⟩
    refine ⟨hmodes, ?_, fun c hc => ?_⟩
    · obtain ⟨a, ha, heq⟩ := hmodes "dataflow_reduce" (by decide)
      obtain ⟨c, hc, hcell⟩ := hto a ha
      refine List.ne_nil_of_mem (List.mem_filter.mpr ⟨hc, ?_⟩)
      rw [(cell_kept hcell).2, Exp64Artifact.isClaimMode, heq]
      decide
    · obtain ⟨hmem, hclaim⟩ := List.mem_filter.mp hc
      obtain ⟨a, ha, hcell⟩ := hfrom c hmem
      rw [(cell_kept hcell).2] at hclaim
      exact (cell_class_iff hcls hcell hclaim).mpr (hcalls a ha hclaim)

theorem controlsValid_iff (h : artifacts.mapM classifyExp64Cell = .ok cells) :
    controlsValid cells = true ↔ ControlsPass artifacts := by
  obtain ⟨hto, hfrom⟩ := mapM_mem h
  have hpass : ∀ {a : Exp64Artifact} {c : Exp64Cell}, classifyExp64Cell a = .ok c →
      a.isClaimMode = false →
      (c.controlOverallPass.getD false = true ↔ a.overallPass = some true) := by
    intro a c hcell hcontrol
    rw [cell_control hcell hcontrol]
    cases a.overallPass with
    | none => decide
    | some b => cases b <;> decide
  have hmem : ∀ {c : Exp64Cell}, c ∈ controlCells cells ↔ c ∈ cells ∧ c.isClaimMode = false := by
    intro c
    rw [controlCells, List.mem_filter, Bool.not_eq_true']
  rw [controlsValid, Bool.and_eq_true, Bool.not_eq_true', List.isEmpty_eq_false_iff_exists_mem,
    List.all_eq_true]
  constructor
  · rintro ⟨⟨c, hc⟩, hall⟩
    constructor
    · obtain ⟨hcell, hcontrol⟩ := hmem.mp hc
      obtain ⟨a, ha, heq⟩ := hfrom c hcell
      exact ⟨a, ha, (cell_kept heq).2.symm.trans hcontrol⟩
    · intro a ha hcontrol
      obtain ⟨c', hc', heq⟩ := hto a ha
      have hkept : c'.isClaimMode = false := (cell_kept heq).2.trans hcontrol
      exact (hpass heq hcontrol).mp (hall c' (hmem.mpr ⟨hc', hkept⟩))
  · rintro ⟨⟨a, ha, hcontrol⟩, hall⟩
    constructor
    · obtain ⟨c, hc, heq⟩ := hto a ha
      exact ⟨c, hmem.mpr ⟨hc, (cell_kept heq).2.trans hcontrol⟩⟩
    · intro c hc
      obtain ⟨hcell, hkept⟩ := hmem.mp hc
      obtain ⟨b, hb, heq⟩ := hfrom c hcell
      rw [(cell_kept heq).2] at hkept
      exact (hpass heq hkept).mpr (hall b hb hkept)

theorem run_total (h : ClaimsShow cls artifacts) (expectation : Expectation) :
    ∃ e, evaluateExp64Run artifacts expectation = .ok e := by
  obtain ⟨cells, hcells⟩ := cells_total h
  exact ⟨_, by rw [evaluateExp64Run, hcells]; rfl⟩

theorem run_cells {expectation : Expectation} {e : RunEval}
    (h : evaluateExp64Run artifacts expectation = .ok e) :
    ∃ cells, artifacts.mapM classifyExp64Cell = .ok cells ∧ e = evaluateCells expectation cells := by
  unfold evaluateExp64Run at h
  cases hcells : artifacts.mapM classifyExp64Cell with
  | error err =>
    rw [hcells] at h
    cases h
  | ok cells =>
    rw [hcells] at h
    cases h
    exact ⟨cells, rfl, rfl⟩

/-- the flag -/
theorem passed_iff {expectation : Expectation} {e : RunEval}
    (h : evaluateExp64Run artifacts expectation = .ok e) :
    e.passed = true ↔ ClaimsShow expectation.wanted artifacts ∧ ControlsPass artifacts := by
  obtain ⟨cells, hcells, rfl⟩ := run_cells h
  show (decide (runClass cells = expectation.wanted) && controlsValid cells) = true ↔ _
  rw [Bool.and_eq_true, decide_eq_true_eq, runClass_shows expectation.wanted_signature hcells,
    controlsValid_iff hcells]

/-- the class of a master run, which its control cells have no part in -/
theorem masterClass_iff {e : RunEval} (h : evaluateExp64Run artifacts .masterFix = .ok e) :
    e.runClassification = .waiterResumedOnReady ↔ ClaimsShow .waiterResumedOnReady artifacts := by
  obtain ⟨cells, hcells, rfl⟩ := run_cells h
  exact runClass_shows (Or.inr rfl) hcells

end

/-! ## the verdict -/

section
variable {control : List Exp64Artifact} {masters : List (List Exp64Artifact)}

/-- the cells that give the verdict: of the master runs the claim cells only -/
def Shows (control : List Exp64Artifact) (masters : List (List Exp64Artifact)) : Prop :=
  (ClaimsShow .waiterResumeAtTimeout control ∧ ControlsPass control) ∧ masters ≠ [] ∧
    ∀ m ∈ masters, ClaimsShow .waiterResumedOnReady m

theorem verdict_iff : verdict control masters = .ok .waiterResumedOnReady ↔ Shows control masters := by
  have hflag : ∀ {ms : List RunEval},
      masters.mapM (fun m => evaluateExp64Run m .masterFix) = .ok ms →
      ∀ m ∈ ms, m.passed = true → m.runClassification = .waiterResumedOnReady := by
    intro ms hms m hm hpassed
    obtain ⟨run, -, heq⟩ := (mapM_mem hms).2 m hm
    exact (masterClass_iff heq).mpr ((passed_iff heq).mp hpassed).1
  unfold verdict
  rw [bind_ok_iff]
  constructor
  · rintro ⟨e, hcontrol, h⟩
    obtain ⟨ms, hms, hverdict⟩ := bind_ok_iff.mp h
    obtain ⟨hpassed, hne, hready⟩ := (finalVerdict_iff (hflag hms)).mp (Except.ok.inj hverdict)
    obtain ⟨hto, -⟩ := mapM_mem hms
    refine ⟨(passed_iff hcontrol).mp hpassed, ?_, fun run hrun => ?_⟩
    · rintro rfl
      cases hms
      exact hne rfl
    · obtain ⟨m, hm, heq⟩ := hto run hrun
      exact (masterClass_iff heq).mp (hready m hm)
  · rintro ⟨⟨hclaims, hcontrols⟩, hne, hready⟩
    obtain ⟨e, hcontrol⟩ := run_total hclaims .controlV111
    obtain ⟨ms, hms⟩ := mapM_total (f := fun m => evaluateExp64Run m .masterFix)
      fun run hrun => run_total (hready run hrun) .masterFix
    obtain ⟨hto, hfrom⟩ := mapM_mem hms
    refine ⟨e, hcontrol, bind_ok_iff.mpr ⟨ms, hms, congrArg Except.ok ?_⟩⟩
    refine (finalVerdict_iff (hflag hms)).mpr
      ⟨(passed_iff hcontrol).mpr ⟨hclaims, hcontrols⟩, ?_, fun m hm => ?_⟩
    · obtain ⟨run, hrun⟩ := List.exists_mem_of_ne_nil _ hne
      obtain ⟨m, hm, -⟩ := hto run hrun
      exact List.ne_nil_of_mem hm
    · obtain ⟨run, hrun, heq⟩ := hfrom m hm
      exact (masterClass_iff heq).mpr (hready run hrun)

/-- the run passed -/
def Passed (expectation : Expectation) (artifacts : List Exp64Artifact) : Prop :=
  ∃ e, evaluateExp64Run artifacts expectation = .ok e ∧ e.passed = true

theorem passed_shows {expectation : Expectation} {artifacts : List Exp64Artifact} :
    Passed expectation artifacts ↔
      ClaimsShow expectation.wanted artifacts ∧ ControlsPass artifacts := by
  constructor
  · rintro ⟨e, heq, hpassed⟩
    exact (passed_iff heq).mp hpassed
  · intro h
    obtain ⟨e, heq⟩ := run_total h.1 expectation
    exact ⟨e, heq, (passed_iff heq).mpr h⟩

/-- the flags of the runs: that of a master run is lost where its class alone says fixed -/
theorem verdict_passed_iff :
    (verdict control masters = .ok .waiterResumedOnReady →
      Passed .controlV111 control ∧ masters ≠ [] ∧ ∀ m ∈ masters, Passed .masterFix m) ↔
    (Shows control masters → ∀ m ∈ masters, ControlsPass m) := by
  rw [verdict_iff]
  constructor
  · intro h hshows m hm
    exact (passed_shows.mp ((h hshows).2.2 m hm)).2
  · intro h hshows
    refine ⟨passed_shows.mpr hshows.1, hshows.2.1, fun m hm => ?_⟩
    exact passed_shows.mpr ⟨hshows.2.2 m hm, h hshows m hm⟩

/-- the poll and the yield control are there, and each control cell passed -/
def ControlsProper (artifacts : List Exp64Artifact) : Prop :=
  (∀ mode ∈ controlModes, ∃ a ∈ artifacts, a.readinessComposition = some mode) ∧
    ∀ a ∈ artifacts, a.isClaimMode = false → a.overallPass = some true

theorem ControlsProper.pass {artifacts : List Exp64Artifact} (h : ControlsProper artifacts) :
    ControlsPass artifacts := by
  obtain ⟨a, ha, hmode⟩ := h.1 "root_flat_gather_poll" (by decide)
  refine ⟨⟨a, ha, ?_⟩, h.2⟩
  rw [Exp64Artifact.isClaimMode, hmode]
  decide

/-- a run as its expectation has it -/
structure RunSound (expectation : Expectation) (artifacts : List Exp64Artifact) : Prop where
  passed : Passed expectation artifacts
  claims : ClaimsShow expectation.wanted artifacts
  controls : ControlsProper artifacts

/-- what the verdict is to mean -/
def Sound (control : List Exp64Artifact) (masters : List (List Exp64Artifact)) : Prop :=
  verdict control masters = .ok .waiterResumedOnReady →
    RunSound .controlV111 control ∧ masters ≠ [] ∧ ∀ m ∈ masters, RunSound .masterFix m

theorem verdict_sound_iff : Sound control masters ↔
    (Shows control masters → ∀ run ∈ control :: masters, ControlsProper run) := by
  rw [Sound, verdict_iff]
  constructor
  · intro h hshows run hrun
    obtain ⟨hcontrol, -, hmasters⟩ := h hshows
    rcases List.mem_cons.mp hrun with rfl | hrun
    · exact hcontrol.controls
    · exact (hmasters run hrun).controls
  · intro h hshows
    have hproper := h hshows
    obtain ⟨hcontrol, hne, hready⟩ := hshows
    refine ⟨?_, hne, fun m hm => ?_⟩
    · exact ⟨passed_shows.mpr hcontrol, hcontrol.1, hproper control List.mem_cons_self⟩
    · have hm' := hproper m (List.mem_cons_of_mem control hm)
      exact ⟨passed_shows.mpr ⟨hready m hm, hm'.pass⟩, hready m hm, hm'⟩

end

/-! ## a master run whose poll control failed -/

/-- a call of a waiter that is suspended at 2 ms, its future ready at 6 ms -/
def readyCall (waitReturnedNs rttNs : Int) : Exp64Call :=
  ⟨some 1, some 5000000, some 6000000, some 2000000, some waitReturnedNs, some rttNs, some "ready"⟩

def stall : Exp64Call := readyCall 8000300000 8000400000
def fixed : Exp64Call := readyCall 7000000 8000000

def art (calls : List Exp64Call) (mode : String) (overall : Option Bool) : Exp64Artifact :=
  ⟨some mode, none, some "0", none, some 8.0, some calls, overall, none, none⟩

/-- a run of one call for each claim mode -/
def artifacts (call : Exp64Call) (poll : Bool) : List Exp64Artifact :=
  [art [call] "when_all_then_reduce" none, art [call] "dataflow_reduce" none,
    art [] "root_flat_gather_poll" (some poll), art [] "when_all_then_reduce_yield" (some true)]

theorem callIs_of_map {cls : WaitClass} {timeoutS : Float} {call : Exp64Call}
    (h : (classifyExp64Call call timeoutS).map CallClass.classification = .ok cls) :
    CallIs cls timeoutS call := by
  unfold CallIs
  cases hcall : classifyExp64Call call timeoutS with
  | error e =>
    rw [hcall] at h
    cases h
  | ok p =>
    rw [hcall] at h
    exact ⟨p, rfl, Except.ok.inj h⟩

theorem stall_class : CallIs .waiterResumeAtTimeout 8.0 stall := callIs_of_map (by decide +kernel)

theorem fixed_class : CallIs .waiterResumedOnReady 8.0 fixed := callIs_of_map (by decide +kernel)

theorem artifacts_show {cls : WaitClass} {call : Exp64Call} (h : CallIs cls 8.0 call) (poll : Bool) :
    ClaimsShow cls (artifacts call poll) := by
  refine ⟨by simp [claimModes, artifacts, art], ?_⟩
  have hcalls : ∀ mode, CallsAre cls (art [call] mode none) := fun mode =>
    ⟨List.cons_ne_nil call [], List.forall_mem_singleton.mpr h⟩
  simp only [artifacts, List.forall_mem_cons]
  refine ⟨fun _ => hcalls _, fun _ => hcalls _, ?_, ?_, fun _ hmem => nomatch hmem⟩
  · intro hclaim
    exact absurd hclaim (by decide +revert)
  · intro hclaim
    exact absurd hclaim (by decide)

theorem artifacts_pass (call : Exp64Call) : ControlsPass (artifacts call true) := by
  simp [ControlsPass, artifacts, art, Exp64Artifact.isClaimMode, claimModes]

theorem verdict_unsound : ¬ Sound (artifacts stall true) [artifacts fixed false] := by
  intro h
  have hshows : Shows (artifacts stall true) [artifacts fixed false] :=
    ⟨⟨artifacts_show stall_class true, artifacts_pass stall⟩, List.cons_ne_nil _ [],
      List.forall_mem_singleton.mpr (artifacts_show fixed_class false)⟩
  obtain ⟨-, -, hmasters⟩ := h (verdict_iff.mpr hshows)
  have hpoll := (List.forall_mem_singleton.mp hmasters).controls.2
    (art [] "root_flat_gather_poll" (some false)) (by simp [artifacts]) (by decide)
  cases hpoll

end WaiterFix
end RayX
