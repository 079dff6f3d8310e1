import RayX.Experiments.Demand

/-!
# The root of a demand-triggered admission

* `RootMoves`, `root_moves`   what a step of the root can do;
* `Placed`                    which of its files the root has written at a place of its program;
* `Filed`                     what stands in them.
-/

namespace RayX
namespace Demand
open Sys

variable {cfg : Config} {v : RootView} {r r' : Root} {a : Answer}

/-! ## the moves -/

/-- the part of the program that a place is in -/
def RootPc.stage : RootPc → Nat
  | .boot => 0
  | .locals _ | .baseline => 1
  | .phase => 2
  | .head | .beat | .live | .look | .finish | .sleep _ => 3
  | .record => 4
  | .preDispatch => 5
  | .dispatch => 6
  | .slices _ => 7
  | .serve => 8
  | .sentinel => 9
  | .leaveHead | .leaveLook | .leaveSleep _ | .leaveWrite => 10
  | .final => 11
  | .result => 12
  | .finalize => 13

/-- the step of the root from `r` -/
inductive RootMoves (cfg : Config) (v : RootView) (r : Root) : Root → Prop
  | boots (hpc : r.pc = .boot) : RootMoves cfg v r { r with
      files := { r.files with ready := some ⟨wall v.now, v.members⟩ }
      idsStart := v.members
      pc := .locals 0 }
  | calls {i : Nat} (ok : Bool) (hpc : r.pc = .locals i) : RootMoves cfg v r { r with
      localOk := if ok then r.localOk + 1 else r.localOk
      pc := .locals (i + 1) }
  | called {i : Nat} (hpc : r.pc = .locals i) : RootMoves cfg v r { r with pc := .baseline }
  | snapshots (hpc : r.pc = .baseline) :
      RootMoves cfg v r { r with idsBaseline := v.members, pc := .phase }
  | phases (hpc : r.pc = .phase) : RootMoves cfg v r { r with
      files := { r.files with
        localPhase := some ⟨wall v.now, r.localOk, r.localOk == cfg.localK, r.idsBaseline⟩ }
      maxEver := max r.idsStart.length r.idsBaseline.length
      deadline := v.now + cfg.waitTimeout
      pc := .head }
  | turns (hpc : r.pc = .head) : RootMoves cfg v r { r with pc := .beat }
  | expires (hpc : r.pc = .head) : RootMoves cfg v r { r with pc := .final }
  | beats (hpc : r.pc = .beat) : RootMoves cfg v r { r with
      heartbeatCount := r.heartbeatCount + 1
      files := { r.files with beats := v.now :: r.files.beats }
      pc := .live }
  | lives (hpc : r.pc = .live) : RootMoves cfg v r { r with
      livenessOk := r.livenessOk + 1
      lastLiveness := wall v.now
      firstLiveness := if r.firstLiveness = 0 then wall v.now else r.firstLiveness
      pc := .look }
  | misses (hpc : r.pc = .live) : RootMoves cfg v r { r with pc := .look }
  | admits {l : UInt32} (hpc : r.pc = .look) (harm : cfg.arm = .demand) (hl : l ∈ v.members)
      (hnew : l ∉ r.idsBaseline) : RootMoves cfg v r { r with
      maxEver := max r.maxEver v.members.length
      admitted := true
      newId := l
      pc := .record }
  | looks {pc : RootPc} (hpc : r.pc = .look) (hnext : pc.stage = 3) :
      RootMoves cfg v r { r with maxEver := max r.maxEver v.members.length, pc := pc }
  | ends (hpc : r.pc = .finish) (hf : v.finishFile = true) :
      RootMoves cfg v r { r with finishSeen := true, pc := .final }
  | rests {till : Nat} (hpc : r.pc = .finish) : RootMoves cfg v r { r with pc := .sleep till }
  | wakes {till : Nat} (hpc : r.pc = .sleep till) : RootMoves cfg v r { r with pc := .head }
  | records (hpc : r.pc = .record) : RootMoves cfg v r { r with
      files := { r.files with
        admission := some ⟨wall v.now, r.idsBaseline, r.newId, r.livenessOk, r.firstLiveness,
          r.lastLiveness⟩ }
      pc := .preDispatch }
  | warns (hpc : r.pc = .preDispatch) : RootMoves cfg v r { r with
      files := { r.files with beats := v.now :: r.files.beats }
      pc := .dispatch }
  | throws (hpc : r.pc = .dispatch) : RootMoves cfg v r { r with
      disp := { remoteId := r.newId, status := .threw }
      pc := .serve }
  | sends (hpc : r.pc = .dispatch) : RootMoves cfg v r { r with
      disp := { remoteId := r.newId }
      parcel := some r.newId
      pc := .slices 0 }
  | waits {i : Nat} {d : RemoteDispatch} (hpc : r.pc = .slices i) (hid : d.remoteId = r.disp.remoteId)
      (hst : d.status = r.disp.status) : RootMoves cfg v r { r with disp := d, pc := .slices (i + 1) }
  | replies {i : Nat} {d : RemoteDispatch} {result : Int64} (hpc : r.pc = .slices i)
      (hid : d.remoteId = r.disp.remoteId) (hr : v.reply = some result) :
      RootMoves cfg v r { r with disp := d.finish (cfg.arg 42) result here, pc := .serve }
  | fails {i : Nat} {d : RemoteDispatch} (hpc : r.pc = .slices i) (hid : d.remoteId = r.disp.remoteId)
      (hst : d.status ≠ .returned) : RootMoves cfg v r { r with disp := d, pc := .serve }
  | serves (hpc : r.pc = .serve) : RootMoves cfg v r { r with
      files := { r.files with served := some r.disp }
      pc := .sentinel }
  | completes (hpc : r.pc = .sentinel) : RootMoves cfg v r { r with
      files := { r.files with rootDone := true }
      leaveDeadline := v.now + cfg.leaveTimeout
      pc := .leaveHead }
  | lingers {pc : RootPc} (hpc : r.pc.stage = 10) (hnext : pc.stage = 10) :
      RootMoves cfg v r { r with pc := pc }
  | parts (hpc : r.pc = .leaveLook) (hgone : r.newId ∉ v.members) : RootMoves cfg v r { r with
      leaveObserved := true
      afterLeave := v.members.length
      pc := .leaveWrite }
  | leaves (hpc : r.pc = .leaveWrite) : RootMoves cfg v r { r with
      files := { r.files with leave := some ⟨r.leaveObserved, r.afterLeave⟩ }
      pc := .final }
  | checks (ok : Bool) (hpc : r.pc = .final) : RootMoves cfg v r { r with
      files := { r.files with finalLocal := some ok }
      pc := .result }
  | results (hpc : r.pc = .result) : RootMoves cfg v r { r with
      files := { r.files with
        result := some ⟨r.livenessOk, r.maxEver, r.admitted, r.finishSeen, false⟩ }
      pc := .finalize }
  | finalizes (rc : Int) (hpc : r.pc = .finalize) :
      RootMoves cfg v r { r with exit := some (.self rc), pc := .finalize }

theorem slices_moves {i : Nat} (hpc : r.pc = .slices i) (h : rootGo cfg v r a = some r') :
    RootMoves cfg v r r' := by
  simp only [rootGo, hpc] at h
  split at h
  · split at h
    · cases h
      exact .waits hpc rfl rfl
    · obtain ⟨result, hr, rfl⟩ := Option.map_eq_some_iff.mp h
      exact .replies hpc rfl hr
    · cases h
      exact .fails hpc rfl nofun
  · cases h
    exact .fails hpc rfl nofun

theorem look_moves (hpc : r.pc = .look) (h : rootGo cfg v r a = some r') : RootMoves cfg v r r' := by
  simp only [rootGo, hpc] at h
  split at h
  · rename_i harm
    split at h
    · rename_i l hl
      cases h
      refine .admits hpc harm (List.mem_of_find?_eq_some hl) ?_
      simpa using List.find?_some hl
    · cases h
      exact .looks hpc rfl
  · cases h
    exact .looks hpc rfl

/-- **What a step of the root can do.** -/
theorem root_moves (h : rootGo cfg v r a = some r') : RootMoves cfg v r r' := by
  cases hpc : r.pc with
  | look => exact look_moves hpc h
  | slices i => exact slices_moves hpc h
  | boot =>
    simp only [rootGo, hpc] at h
    cases h
    exact .boots hpc
  | locals i =>
    simp only [rootGo, hpc] at h
    split at h
    · cases h
      exact .calls _ hpc
    · cases h
      exact .called hpc
  | baseline =>
    simp only [rootGo, hpc] at h
    cases h
    exact .snapshots hpc
  | phase =>
    simp only [rootGo, hpc] at h
    cases h
    exact .phases hpc
  | head =>
    simp only [rootGo, hpc] at h
    split at h
    · cases h
      exact .turns hpc
    · cases h
      exact .expires hpc
  | beat =>
    simp only [rootGo, hpc] at h
    cases h
    exact .beats hpc
  | live =>
    simp only [rootGo, hpc] at h
    split at h
    · cases h
      exact .lives hpc
    · cases h
      exact .misses hpc
  | finish =>
    simp only [rootGo, hpc] at h
    split at h
    · rename_i hf
      cases h
      exact .ends hpc hf
    · cases h
      exact .rests hpc
  | sleep till =>
    simp only [rootGo, hpc] at h
    split at h
    · cases h
      exact .wakes hpc
    · cases h
  | record =>
    simp only [rootGo, hpc] at h
    cases h
    exact .records hpc
  | preDispatch =>
    simp only [rootGo, hpc] at h
    cases h
    exact .warns hpc
  | dispatch =>
    simp only [rootGo, hpc] at h
    split at h
    · cases h
      exact .throws hpc
    · cases h
      exact .sends hpc
  | serve =>
    simp only [rootGo, hpc] at h
    cases h
    exact .serves hpc
  | sentinel =>
    simp only [rootGo, hpc] at h
    cases h
    exact .completes hpc
  | leaveHead =>
    simp only [rootGo, hpc] at h
    split at h
    · cases h
      exact .lingers (by rw [hpc]; rfl) rfl
    · cases h
      exact .lingers (by rw [hpc]; rfl) rfl
  | leaveLook =>
    simp only [rootGo, hpc] at h
    split at h
    · cases h
      exact .lingers (by rw [hpc]; rfl) rfl
    · rename_i hgone
      cases h
      exact .parts hpc (by simpa using hgone)
  | leaveSleep till =>
    simp only [rootGo, hpc] at h
    split at h
    · cases h
      exact .lingers (by rw [hpc]; rfl) rfl
    · cases h
  | leaveWrite =>
    simp only [rootGo, hpc] at h
    cases h
    exact .leaves hpc
  | final =>
    simp only [rootGo, hpc] at h
    cases h
    exact .checks _ hpc
  | result =>
    simp only [rootGo, hpc] at h
    cases h
    exact .results hpc
  | finalize =>
    simp only [rootGo, hpc] at h
    cases h
    exact .finalizes _ hpc

/-! ## which files are there -/

/-- the files that are there, in the order in which the root writes them -/
def RootFiles.written (f : RootFiles) : List Bool :=
  [f.ready.isSome, f.localPhase.isSome, f.admission.isSome, f.served.isSome, f.rootDone,
    f.leave.isSome, f.finalLocal.isSome, f.result.isSome]

/-- the files due before a part of the program -/
def due (stage : Nat) (admitted : Bool) : List Bool :=
  [decide (1 ≤ stage), decide (3 ≤ stage), admitted && decide (5 ≤ stage),
    admitted && decide (9 ≤ stage), admitted && decide (10 ≤ stage), admitted && decide (11 ≤ stage),
    decide (12 ≤ stage), decide (13 ≤ stage)]

/-- the root is where its files put it; the parts from `record` to the leave are those of an admission -/
structure Placed (r : Root) : Prop where
  written : r.files.written = due r.pc.stage r.admitted
  early : r.admitted = true → 4 ≤ r.pc.stage
  late : 4 ≤ r.pc.stage → r.pc.stage ≤ 10 → r.admitted = true

theorem Placed.same (h : Placed r) (hw : r'.files.written = r.files.written)
    (ha : r'.admitted = r.admitted) (hs : r'.pc.stage = r.pc.stage) : Placed r' := by
  constructor
  · rw [hw, hs, ha]
    exact h.written
  · rw [ha, hs]
    exact h.early
  · rw [ha, hs]
    exact h.late

theorem Placed.moves (h : Placed r) (hm : RootMoves cfg v r r') : Placed r' := by
  obtain ⟨hw, hearly, hlate⟩ := h
  cases hm with
  | lingers hpc hnext => exact Placed.same ⟨hw, hearly, hlate⟩ rfl rfl (hnext.trans hpc.symm)
  | looks hpc hnext =>
    exact Placed.same ⟨hw, hearly, hlate⟩ rfl rfl (hnext.trans (by rw [hpc]; rfl))
  | boots hpc | called hpc | phases hpc | snapshots hpc | expires hpc | records hpc | warns hpc
  | throws hpc | sends hpc | serves hpc | completes hpc | leaves hpc | results hpc | replies hpc
  | fails hpc | turns hpc | beats hpc | lives hpc | misses hpc | wakes hpc | rests hpc | parts hpc
  | calls _ hpc | checks _ hpc | finalizes _ hpc | ends hpc | waits hpc | admits hpc =>
    simp only [hpc, RootPc.stage, RootFiles.written, due] at hw hearly hlate
    constructor <;> simp_all [RootPc.stage, RootFiles.written, due]

theorem Placed.files (h : Placed r) :
    r.files.ready.isSome = decide (1 ≤ r.pc.stage) ∧
      r.files.localPhase.isSome = decide (3 ≤ r.pc.stage) ∧
      r.files.admission.isSome = (r.admitted && decide (5 ≤ r.pc.stage)) ∧
      r.files.served.isSome = (r.admitted && decide (9 ≤ r.pc.stage)) ∧
      r.files.rootDone = (r.admitted && decide (10 ≤ r.pc.stage)) ∧
      r.files.leave.isSome = (r.admitted && decide (11 ≤ r.pc.stage)) ∧
      r.files.finalLocal.isSome = decide (12 ≤ r.pc.stage) ∧
      r.files.result.isSome = decide (13 ≤ r.pc.stage) := by
  have hw := h.written
  simp only [RootFiles.written, due, List.cons.injEq, and_true] at hw
  exact hw

/-- a file that is not due yet is not there -/
theorem Placed.none (h : Placed r) :
    (r.pc.stage ≤ 2 → r.files.localPhase = none) ∧ (r.pc.stage ≤ 4 → r.files.admission = none) ∧
      (r.pc.stage ≤ 8 → r.files.served = none) ∧ (r.pc.stage ≤ 10 → r.files.leave = none) ∧
      (r.pc.stage ≤ 12 → r.files.result = none) := by
  obtain ⟨_, hlocal, hadm, hserved, _, hleave, _, hresult⟩ := h.files
  refine ⟨fun hs => ?_, fun hs => ?_, fun hs => ?_, fun hs => ?_, fun hs => ?_⟩
  · exact Option.not_isSome_iff_eq_none.mp (by rw [hlocal]; simp; omega)
  · exact Option.not_isSome_iff_eq_none.mp (by rw [hadm]; simp; omega)
  · exact Option.not_isSome_iff_eq_none.mp (by rw [hserved]; simp; omega)
  · exact Option.not_isSome_iff_eq_none.mp (by rw [hleave]; simp; omega)
  · exact Option.not_isSome_iff_eq_none.mp (by rw [hresult]; simp; omega)

/-! ## what stands in them -/

/-- the files hold what the root knew when it wrote them, and has known since -/
structure Filed (cfg : Config) (r : Root) : Prop where
  ready : ∀ f, r.files.ready = some f → f.ids = r.idsStart
  localPhase : ∀ f, r.files.localPhase = some f →
    f.ids = r.idsBaseline ∧ f.allOk = (r.localOk == cfg.localK)
  admission : ∀ f, r.files.admission = some f → f.baseline = r.idsBaseline ∧ f.newId = r.newId ∧
    f.livenessOk = r.livenessOk ∧ f.firstLiveness = r.firstLiveness
  served : ∀ d, r.files.served = some d → d = r.disp
  leave : ∀ f, r.files.leave = some f → f.observed = r.leaveObserved
  result : ∀ f, r.files.result = some f →
    f = ⟨r.livenessOk, r.maxEver, r.admitted, r.finishSeen, false⟩

theorem of_none {α : Type} {o : Option α} {P : α → Prop} (h : o = none) : ∀ f, o = some f → P f := by
  rintro f rfl
  cases h

theorem Filed.moves (h : Filed cfg r) (hp : Placed r) (hm : RootMoves cfg v r r') : Filed cfg r' := by
  obtain ⟨hready, hlocal, hadm, hserved, hleave, hresult⟩ := h
  obtain ⟨nolocal, noadm, noserved, noleave, noresult⟩ := hp.none
  cases hm with
  -- nothing that stands in a file
  | lingers | called | turns | expires | beats | misses | rests | wakes | warns | completes
  | checks | finalizes =>
    exact ⟨hready, hlocal, hadm, hserved, hleave, hresult⟩
  -- a new file
  | boots hpc => exact ⟨by rintro f ⟨⟩; rfl, hlocal, hadm, hserved, hleave, hresult⟩
  | phases hpc =>
    exact ⟨hready, by rintro f ⟨⟩; exact ⟨rfl, rfl⟩, hadm, hserved, hleave,
      of_none (noresult (by simp [hpc, RootPc.stage]))⟩
  | records hpc =>
    exact ⟨hready, hlocal, by rintro f ⟨⟩; exact ⟨rfl, rfl, rfl, rfl⟩, hserved, hleave, hresult⟩
  | serves hpc => exact ⟨hready, hlocal, hadm, by rintro d ⟨⟩; rfl, hleave, hresult⟩
  | leaves hpc => exact ⟨hready, hlocal, hadm, hserved, by rintro f ⟨⟩; rfl, hresult⟩
  | results hpc => exact ⟨hready, hlocal, hadm, hserved, hleave, by rintro f ⟨⟩; rfl⟩
  -- what will stand in a file that is not there yet
  | calls _ hpc =>
    exact ⟨hready, of_none (nolocal (by simp [hpc, RootPc.stage])), hadm, hserved, hleave, hresult⟩
  | snapshots hpc =>
    exact ⟨hready, of_none (nolocal (by simp [hpc, RootPc.stage])),
      of_none (noadm (by simp [hpc, RootPc.stage])), hserved, hleave, hresult⟩
  | lives hpc | admits hpc =>
    exact ⟨hready, hlocal, of_none (noadm (by simp [hpc, RootPc.stage])), hserved, hleave,
      of_none (noresult (by simp [hpc, RootPc.stage]))⟩
  | looks hpc | ends hpc =>
    exact ⟨hready, hlocal, hadm, hserved, hleave, of_none (noresult (by simp [hpc, RootPc.stage]))⟩
  | throws hpc | sends hpc | waits hpc | replies hpc | fails hpc =>
    exact ⟨hready, hlocal, hadm, of_none (noserved (by simp [hpc, RootPc.stage])), hleave, hresult⟩
  | parts hpc =>
    exact ⟨hready, hlocal, hadm, hserved, of_none (noleave (by simp [hpc, RootPc.stage])), hresult⟩

/-! ## the one action -/

/-- the action goes to the admitted locality, and a result that came back was computed there -/
structure Sent (r : Root) : Prop where
  parcel : ∀ g, r.parcel = some g → r.admitted = true ∧ g = r.newId ∧ 7 ≤ r.pc.stage
  target : r.admitted = true → 7 ≤ r.pc.stage → r.disp.remoteId = r.newId
  settled : r.disp.status = .returned → 8 ≤ r.pc.stage
  returned : r.disp.status = .returned → r.disp.matched = true ∧ r.disp.executedOn = r.newId ∧
    (r.disp.provedRemote = true ↔ r.newId ≠ here)

/-- no part of the program is gone back to -/
theorem RootMoves.stage (hm : RootMoves cfg v r r') : r.pc.stage ≤ r'.pc.stage := by
  cases hm with
  | lingers hpc hnext => exact Nat.le_of_eq (hpc.trans hnext.symm)
  | looks hpc hnext =>
    rw [hpc]
    exact Nat.le_of_eq hnext.symm
  | boots hpc | called hpc | phases hpc | snapshots hpc | expires hpc | records hpc | warns hpc
  | throws hpc | sends hpc | serves hpc | completes hpc | leaves hpc | results hpc | replies hpc
  | fails hpc | turns hpc | beats hpc | lives hpc | misses hpc | wakes hpc | rests hpc | parts hpc
  | calls _ hpc | checks _ hpc | finalizes _ hpc | ends hpc | waits hpc | admits hpc =>
    simp [hpc, RootPc.stage]

/-- what a move leaves alone that neither admits nor deals with the action -/
theorem Sent.same (h : Sent r) (hp : r'.parcel = r.parcel) (ha : r'.admitted = r.admitted)
    (hn : r'.newId = r.newId) (hd : r'.disp = r.disp) (hs : r.pc.stage ≤ r'.pc.stage)
    (ht : r.admitted = true → 7 ≤ r'.pc.stage → 7 ≤ r.pc.stage) : Sent r' := by
  constructor
  · intro g hg
    rw [hp] at hg
    obtain ⟨had, hid, hst⟩ := h.parcel g hg
    exact ⟨ha.trans had, hid.trans hn.symm, Nat.le_trans hst hs⟩
  · intro had hst
    rw [hd, hn]
    rw [ha] at had
    exact h.target had (ht had hst)
  · rw [hd]
    exact fun hst => Nat.le_trans (h.settled hst) hs
  · rw [hd, hn]
    exact h.returned

theorem Sent.moves (h : Sent r) (hp : Placed r) (hm : RootMoves cfg v r r')
    (hreply : ∀ result, v.reply = some result →
      ∃ g, r.parcel = some g ∧ result = distProbe (cfg.arg 42) g) : Sent r' := by
  have hstage := hm.stage
  have hno : r.pc.stage ≤ 3 → r.admitted = false := by
    intro hle
    cases ha : r.admitted with
    | false => rfl
    | true =>
      have := hp.early ha
      omega
  have hkept : ∀ {n}, 7 ≤ n → ∀ g, r.parcel = some g → r.admitted = true ∧ g = r.newId ∧ 7 ≤ n :=
    fun hn g hg => ⟨(h.parcel g hg).1, (h.parcel g hg).2.1, hn⟩
  cases hm with
  | admits hpc harm hl hnew =>
    have ha : r.admitted = false := hno (by rw [hpc]; decide)
    have hfresh : r.disp.status ≠ .returned := by
      intro hst
      have := h.settled hst
      rw [hpc] at this
      exact absurd this (by decide)
    refine ⟨?_, nofun, fun hst => absurd hst hfresh, fun hst => absurd hst hfresh⟩
    intro g hg
    rw [(h.parcel g hg).1] at ha
    cases ha
  | throws hpc =>
    refine ⟨?_, fun _ _ => rfl, nofun, nofun⟩
    intro g hg
    have hst := (h.parcel g hg).2.2
    rw [hpc] at hst
    exact absurd hst (by decide)
  | sends hpc =>
    have ha : r.admitted = true := hp.late (by rw [hpc]; decide) (by rw [hpc]; decide)
    refine ⟨?_, fun _ _ => rfl, nofun, nofun⟩
    rintro g ⟨⟩
    exact ⟨ha, rfl, Nat.le_refl 7⟩
  | waits hpc hid hst =>
    have hfresh : r.disp.status ≠ .returned := by
      intro hret
      have := h.settled hret
      rw [hpc] at this
      exact absurd this (by simp [RootPc.stage])
    have ht := h.target
    rw [hpc] at ht
    refine ⟨hkept (Nat.le_refl 7), fun ha _ => hid.trans (ht ha (Nat.le_refl 7)), ?_, ?_⟩
    · intro hret
      exact absurd (hst.symm.trans hret) hfresh
    · intro hret
      exact absurd (hst.symm.trans hret) hfresh
  | replies hpc hid hr =>
    obtain ⟨g, hg, rfl⟩ := hreply _ hr
    have ha := (h.parcel g hg).1
    have htarget := h.target ha (by rw [hpc]; exact Nat.le_refl 7)
    have hown : _ = g := hid.trans (htarget.trans (h.parcel g hg).2.1.symm)
    refine ⟨hkept (show 7 ≤ 8 by decide), fun _ _ => hid.trans htarget, fun _ => Nat.le_refl 8, fun _ => ?_⟩
    rw [← hown, ← htarget, ← hid]
    exact RemoteDispatch.finish_own _ _ _
  | fails hpc hid hst =>
    have ht := h.target
    rw [hpc] at ht
    exact ⟨hkept (show 7 ≤ 8 by decide), fun ha _ => hid.trans (ht ha (Nat.le_refl 7)),
      fun hret => absurd hret hst, fun hret => absurd hret hst⟩
  | expires hpc =>
    refine h.same rfl rfl rfl rfl hstage ?_
    intro ha
    rw [hno (by rw [hpc]; decide)] at ha
    cases ha
  | ends hpc =>
    refine h.same rfl rfl rfl rfl hstage ?_
    intro ha
    rw [hno (by rw [hpc]; decide)] at ha
    cases ha
  | lingers hpc hnext => exact h.same rfl rfl rfl rfl hstage fun _ _ => by omega
  | looks hpc hnext =>
    refine h.same rfl rfl rfl rfl hstage ?_
    intro ha
    rw [hno (by rw [hpc]; decide)] at ha
    cases ha
  | boots hpc | called hpc | phases hpc | snapshots hpc | records hpc | warns hpc | serves hpc
  | completes hpc | leaves hpc | results hpc | turns hpc | beats hpc | lives hpc | misses hpc
  | wakes hpc | rests hpc | parts hpc | calls _ hpc | checks _ hpc | finalizes _ hpc =>
    exact h.same rfl rfl rfl rfl hstage (by simp [hpc, RootPc.stage])

/-! ## what the others see of a move -/

theorem RootMoves.admission (hm : RootMoves cfg v r r') :
    (r'.admitted = r.admitted ∧ r'.newId = r.newId) ∨
      (cfg.arm = .demand ∧ r.pc = .look ∧ r'.admitted = true ∧ r'.newId ∈ v.members ∧
        r'.newId ∉ r.idsBaseline) := by
  cases hm with
  | admits hpc harm hl hnew => exact .inr ⟨harm, hpc, rfl, hl, hnew⟩
  | _ => exact .inl ⟨rfl, rfl⟩

/-- the two snapshots are taken once -/
theorem RootMoves.snaps (hm : RootMoves cfg v r r') :
    (r.pc.stage = 0 → r'.idsStart = v.members) ∧ (1 ≤ r.pc.stage → r'.idsStart = r.idsStart) ∧
      (r.pc.stage ≤ 1 → 2 ≤ r'.pc.stage → r'.idsBaseline = v.members) ∧
      (2 ≤ r.pc.stage → r'.idsBaseline = r.idsBaseline) := by
  cases hm with
  | lingers hpc hnext => exact ⟨by omega, fun _ => rfl, by omega, fun _ => rfl⟩
  | boots hpc | called hpc | phases hpc | snapshots hpc | expires hpc | records hpc | warns hpc
  | throws hpc | sends hpc | serves hpc | completes hpc | leaves hpc | results hpc | replies hpc
  | fails hpc | turns hpc | beats hpc | lives hpc | misses hpc | wakes hpc | rests hpc | parts hpc
  | calls _ hpc | checks _ hpc | finalizes _ hpc | ends hpc | waits hpc | admits hpc | looks hpc =>
    simp [hpc, RootPc.stage]

theorem RootMoves.parting (hm : RootMoves cfg v r r') (h : r'.leaveObserved = true) :
    r.leaveObserved = true ∨ r.pc = .leaveLook ∧ r.newId ∉ v.members := by
  cases hm with
  | parts hpc hgone => exact .inr ⟨hpc, hgone⟩
  | _ => exact .inl h

/-- the two files whose time stamps are compared with those of the others -/
theorem RootMoves.stamps (hm : RootMoves cfg v r r') :
    (∀ f, r'.files.localPhase = some f → r.files.localPhase = some f ∨
      r.pc = .phase ∧ f.wall = wall v.now) ∧
    ∀ f, r'.files.admission = some f → r.files.admission = some f ∨
      r.pc = .record ∧ f.wall = wall v.now := by
  cases hm with
  | phases hpc => exact ⟨by rintro f ⟨⟩; exact .inr ⟨hpc, rfl⟩, fun _ => .inl⟩
  | records hpc => exact ⟨fun _ => .inl, by rintro f ⟨⟩; exact .inr ⟨hpc, rfl⟩⟩
  | _ => exact ⟨fun _ => .inl, fun _ => .inl⟩

/-- the first heartbeat call that was right is after the local phase -/
theorem RootMoves.first (hm : RootMoves cfg v r r') : r'.firstLiveness = r.firstLiveness ∨
    r.pc = .live ∧ r'.files.localPhase = r.files.localPhase ∧ r'.firstLiveness = wall v.now := by
  cases hm with
  | lives hpc =>
    by_cases h0 : r.firstLiveness = 0
    · exact .inr ⟨hpc, rfl, if_pos h0⟩
    · exact .inl (if_neg h0)
  | _ => exact .inl rfl

theorem RootMoves.beating (hm : RootMoves cfg v r r') :
    r'.files.beats = r.files.beats ∨ r'.files.beats = v.now :: r.files.beats := by
  cases hm with
  | beats hpc => exact .inr rfl
  | warns hpc => exact .inr rfl
  | _ => exact .inl rfl

theorem RootMoves.done (hm : RootMoves cfg v r r') (h : r.files.rootDone = true) :
    r'.files.rootDone = true := by
  cases hm with
  | completes hpc => rfl
  | _ => exact h

/-- the action is sent once -/
theorem RootMoves.sent (hm : RootMoves cfg v r r') (hs : Sent r) {g : UInt32}
    (h : r.parcel = some g) : r'.parcel = some g := by
  cases hm with
  | sends hpc =>
    have hst := (hs.parcel g h).2.2
    rw [hpc] at hst
    exact absurd hst (by decide)
  | _ => exact h

theorem RootMoves.exits (hm : RootMoves cfg v r r') (h : r.exit = none) {e : Exit}
    (he : r'.exit = some e) : r'.pc.stage = 13 := by
  cases hm with
  | finalizes rc hpc => rfl
  | _ =>
    rw [show r.exit = some e from he] at h
    cases h

/-- a root that is always alone has seen one locality -/
theorem RootMoves.alone (hm : RootMoves cfg v r r') (hv : v.members = [here])
    (hs : 1 ≤ r.pc.stage → r.idsStart = [here]) (hb : 2 ≤ r.pc.stage → r.idsBaseline = [here])
    (h : 3 ≤ r.pc.stage → r.maxEver = 1) : 3 ≤ r'.pc.stage → r'.maxEver = 1 := by
  cases hm with
  | phases hpc =>
    rw [hpc] at hs hb
    intro _
    show max r.idsStart.length r.idsBaseline.length = 1
    rw [hs (by decide), hb (by decide)]
    rfl
  | looks hpc | admits hpc =>
    rw [hpc] at h
    intro _
    show max r.maxEver v.members.length = 1
    rw [h (by decide), hv]
    rfl
  | lingers hpc hnext => exact fun _ => h (by omega)
  -- the loop has not begun
  | boots hpc | called hpc | snapshots hpc | calls _ hpc => simp [RootPc.stage]
  | expires hpc | records hpc | warns hpc | throws hpc | sends hpc | serves hpc | completes hpc
  | leaves hpc | results hpc | replies hpc | fails hpc | turns hpc | beats hpc | lives hpc
  | misses hpc | wakes hpc | rests hpc | parts hpc | checks _ hpc | finalizes _ hpc | ends hpc
  | waits hpc =>
    simpa [hpc, RootPc.stage] using h

/-- the first success of the liveness work has a time -/
theorem RootMoves.lively (hm : RootMoves cfg v r r') (hnow : 0 < wall v.now)
    (h : r.livenessOk = 0 ↔ r.firstLiveness = 0) : r'.livenessOk = 0 ↔ r'.firstLiveness = 0 := by
  cases hm with
  | lives hpc =>
    show r.livenessOk + 1 = 0 ↔ (if r.firstLiveness = 0 then wall v.now else r.firstLiveness) = 0
    split <;> omega
  | _ => exact h

end Demand
end RayX
