import RayX.Supervision.RecoveryRoot

/-!
# The order of a recovery

* `CtlMoves`, `ctl_moves`     what a step of the controller can do;
* `Controller.Planned`, `Collected`   what it has done and read at each of its places;
* `Inv`, `inv_reach`          the invariant of the two;
* `recovery_order`            **what precedes what**, in every interleaving;
* `finish_tells`              **what the note of the root tells**.
-/

namespace RayX
namespace Recovery
open Sys

variable {roles : Option Roles} {r r' : Root} {a : Answer} {s s' : World} {c c' : Controller}
  {files files' : RootFiles}

/-! ## the stages of the controller -/

def Conn.stage : Conn → Nat
  | .a => 0
  | .b => 3
  | .c => 15

def CtlPc.stage : CtlPc → Nat
  | .started => 0
  | .ident k => k.stage + 1
  | .start k => k.stage + 2
  | .sup k => k.stage + 3
  | .roles => 7
  | .joined => 8
  | .work => 9
  | .kill => 10
  | .gone => 11
  | .fencing => 12
  | .disconnect => 13
  | .effect => 14
  | .ready => 15
  | .rolesC => 19
  | .result => 20
  | .root => 21
  | .done => 22

/-- what a controller at its place has done -/
structure Controller.Planned (c : Controller) : Prop where
  rolesFile : c.rolesFile =
    if 8 ≤ c.pc.stage then some ⟨c.locA, c.locB, if 20 ≤ c.pc.stage then c.locC else none⟩ else none
  locC : c.locC.isSome = decide (18 ≤ c.pc.stage)
  killed : c.killed = if 11 ≤ c.pc.stage then (c.bIdent.map Prod.fst).toList else []
  target : 11 ≤ c.pc.stage → c.bIdent.any (fun q => q.1 == q.2) = true
  joined : c.m.joined.isSome = decide (9 ≤ c.pc.stage)
  work : c.m.work.isSome = decide (10 ≤ c.pc.stage)
  gone : 12 ≤ c.pc.stage → c.m.departure.isSome = true
  departure : ∀ d, c.m.departure = some d → d.signal = "SIGKILL" ∧ d.graceful = false
  fencing : c.m.fencing.isSome = decide (13 ≤ c.pc.stage)
  disconnect : c.m.disconnect.isSome = decide (14 ≤ c.pc.stage)
  effect : c.m.effect.isSome = decide (15 ≤ c.pc.stage)
  result : c.m.result.isSome = decide (21 ≤ c.pc.stage)

/-- what is collected is what the root has written -/
structure Collected (c : Controller) (files : RootFiles) : Prop where
  joined : ∀ f, c.m.joined = some f → files.joined = some f
  work : ∀ f, c.m.work = some f → files.work = some f
  fencing : ∀ f, c.m.fencing = some f → files.fencing = some f
  disconnect : ∀ f, c.m.disconnect = some f → files.disconnect = some f
  effect : ∀ f, c.m.effect = some f → files.effect = some f
  ready : 16 ≤ c.pc.stage → files.ready = true
  result : ∀ f, c.m.result = some f → files.result = some f

theorem Collected.grow (h : Collected c files) (hg : files.Grows files') : Collected c files' :=
  ⟨fun f hf => hg.joined f (h.joined f hf), fun f hf => hg.work f (h.work f hf),
    fun f hf => hg.fencing f (h.fencing f hf), fun f hf => hg.disconnect f (h.disconnect f hf),
    fun f hf => hg.effect f (h.effect f hf), fun hs => hg.ready (h.ready hs),
    fun f hf => hg.result f (h.result f hf)⟩

/-- a marker that is required is there, or the controller gives up -/
theorem require_cases {F : Type} {file : Option F} {seen : Bool} {go : F → Controller}
    (h : require c file seen go = some c') : (∃ f, file = some f ∧ c' = go f) ∨ c' = c.raise := by
  unfold require at h
  split at h
  · rename_i f
    split at h
    · exact .inl ⟨f, rfl, (Option.some.inj h).symm⟩
    · cases h
  · split at h
    · cases h
    · exact .inr (Option.some.inj h).symm

/-- what the controller can do, and what it has read before -/
inductive CtlMoves (files : RootFiles) (c : Controller) : Controller → Prop
  | raises : CtlMoves files c c.raise
  | starts (hpc : c.pc = .started) : CtlMoves files c { c with pc := .ident .a }
  | idents (k : Conn) (i : Option (Nat × Nat)) (hpc : c.pc = .ident k) (hi : k ≠ .b → i = c.bIdent) :
      CtlMoves files c { c with bIdent := i, pc := .start k }
  | startsA (l : UInt32) (hpc : c.pc = .start .a) : CtlMoves files c { c with locA := l, pc := .sup .a }
  | startsB (l : UInt32) (hpc : c.pc = .start .b) : CtlMoves files c { c with locB := l, pc := .sup .b }
  | startsC (l : UInt32) (hpc : c.pc = .start .c) :
      CtlMoves files c { c with locC := some l, pc := .sup .c }
  | inits (k : Conn) (hpc : c.pc = .sup k) : CtlMoves files c { c with pc := k.next }
  | writes (hpc : c.pc = .roles) :
      CtlMoves files c { c with rolesFile := some ⟨c.locA, c.locB, none⟩, pc := .joined }
  | joined (f : JoinedFile) (hpc : c.pc = .joined) (hf : files.joined = some f) :
      CtlMoves files c { c with m := { c.m with joined := some f }, pc := .work }
  | work (f : WorkFile) (hpc : c.pc = .work) (hf : files.work = some f) :
      CtlMoves files c { c with m := { c.m with work := some f }, pc := .kill }
  | kills (pid : Nat) (hpc : c.pc = .kill) (hi : c.bIdent = some (pid, pid)) :
      CtlMoves files c { c with killed := pid :: c.killed, pc := .gone }
  | departs (hpc : c.pc = .gone) :
      CtlMoves files c { c with m := { c.m with departure := some { pidGone := true } }, pc := .fencing }
  | stays (hpc : c.pc = .gone) :
      CtlMoves files c
        (Controller.raise { c with m := { c.m with departure := some { pidGone := false } }, pc := .gone })
  | fencing (f : FencingFile) (hpc : c.pc = .fencing) (hf : files.fencing = some f) :
      CtlMoves files c { c with m := { c.m with fencing := some f }, pc := .disconnect }
  | disconnect (f : DisconnectFile) (hpc : c.pc = .disconnect) (hf : files.disconnect = some f) :
      CtlMoves files c { c with m := { c.m with disconnect := some f }, pc := .effect }
  | effect (f : EffectFile) (hpc : c.pc = .effect) (hf : files.effect = some f) :
      CtlMoves files c { c with m := { c.m with effect := some f }, pc := .ready }
  | ready (hpc : c.pc = .ready) (hf : files.ready = true) : CtlMoves files c { c with pc := .ident .c }
  | writesC (hpc : c.pc = .rolesC) :
      CtlMoves files c { c with rolesFile := some ⟨c.locA, c.locB, c.locC⟩, pc := .result }
  | result (f : ResultFile) (hpc : c.pc = .result) (hf : files.result = some f) :
      CtlMoves files c { c with m := { c.m with result := some f }, pc := .root }
  | reaps (hpc : c.pc = .root) : CtlMoves files c { c with pc := .done }

theorem ctl_moves (h : ctlTry files c a = some c') : CtlMoves files c c' := by
  cases hpc : c.pc with
  | started =>
    simp only [ctlTry, hpc] at h
    repeat' split at h
    all_goals cases h
    · exact .starts hpc
    · exact .raises
  | ident k =>
    simp only [ctlTry, hpc] at h
    cases h
    exact .idents k _ hpc fun hk => by rw [if_neg hk]
  | start k =>
    simp only [ctlTry, hpc] at h
    split at h
    · cases k <;> cases h
      · exact .startsA a.locality hpc
      · exact .startsB a.locality hpc
      · exact .startsC a.locality hpc
    · cases h
      exact .raises
  | sup k =>
    simp only [ctlTry, hpc] at h
    split at h <;> cases h
    · exact .inits k hpc
    · exact .raises
  | roles =>
    simp only [ctlTry, hpc] at h
    cases h
    exact .writes hpc
  | joined =>
    simp only [ctlTry, hpc] at h
    obtain ⟨f, hf, rfl⟩ | rfl := require_cases h
    · exact .joined f hpc hf
    · exact .raises
  | work =>
    simp only [ctlTry, hpc] at h
    obtain ⟨f, hf, rfl⟩ | rfl := require_cases h
    · exact .work f hpc hf
    · exact .raises
  | kill =>
    simp only [ctlTry, hpc] at h
    split at h
    · rename_i pid osPid hi
      split at h <;> cases h
      · rename_i heq
        exact .kills pid hpc (by rw [hi, heq])
      · exact .raises
    · cases h
      exact .raises
  | gone =>
    simp only [ctlTry, hpc] at h
    split at h <;> cases h
    · rename_i hok
      rw [hok]
      exact .departs hpc
    · rename_i hok
      rw [Bool.not_eq_true _ |>.mp hok]
      exact .stays hpc
  | fencing =>
    simp only [ctlTry, hpc] at h
    obtain ⟨f, hf, rfl⟩ | rfl := require_cases h
    · exact .fencing f hpc hf
    · exact .raises
  | disconnect =>
    simp only [ctlTry, hpc] at h
    obtain ⟨f, hf, rfl⟩ | rfl := require_cases h
    · exact .disconnect f hpc hf
    · exact .raises
  | effect =>
    simp only [ctlTry, hpc] at h
    obtain ⟨f, hf, rfl⟩ | rfl := require_cases h
    · exact .effect f hpc hf
    · exact .raises
  | ready =>
    simp only [ctlTry, hpc] at h
    split at h
    · rename_i hready
      split at h <;> cases h
      · rename_i hok
        exact .ready hpc (hready.trans hok)
      · exact .raises
    · cases h
  | rolesC =>
    simp only [ctlTry, hpc] at h
    cases h
    exact .writesC hpc
  | result =>
    simp only [ctlTry, hpc] at h
    obtain ⟨f, hf, rfl⟩ | rfl := require_cases h
    · exact .result f hpc hf
    · exact .raises
  | root =>
    simp only [ctlTry, hpc] at h
    cases h
    exact .reaps hpc
  | done =>
    simp only [ctlTry, hpc] at h
    cases h

theorem Controller.Planned.raised (h : c.Planned) : c.raise.Planned :=
  ⟨h.rolesFile, h.locC, h.killed, h.target, h.joined, h.work, h.gone, h.departure, h.fencing, h.disconnect,
    h.effect, h.result⟩

theorem Controller.Planned.move (h : c.Planned) (hm : CtlMoves files c c') : c'.Planned := by
  obtain ⟨h1, h2, h3, h4, h5, h6, h7, h8, h9, h10, h11, h12⟩ := id h
  cases hm with
  | raises => exact h.raised
  | idents k i hpc hi =>
    cases k <;> simp [hpc, CtlPc.stage, Conn.stage] at h1 h2 h3 h4 h5 h6 h7 h9 h10 h11 h12 hi <;>
      constructor <;> first | exact h8 | simp [*, CtlPc.stage, Conn.stage]
  | inits k hpc =>
    cases k <;> simp [hpc, CtlPc.stage, Conn.stage] at h1 h2 h3 h4 h5 h6 h7 h9 h10 h11 h12 <;>
      constructor <;> first | exact h8 | simp [*, CtlPc.stage, Conn.stage, Conn.next]
  | starts hpc | startsA l hpc | startsB l hpc | startsC l hpc | ready hpc hf =>
    simp [hpc, CtlPc.stage, Conn.stage] at h1 h2 h3 h4 h5 h6 h7 h9 h10 h11 h12
    constructor <;> first | exact h8 | simp [*, CtlPc.stage, Conn.stage]
  | writes hpc | writesC hpc | reaps hpc =>
    simp [hpc, CtlPc.stage] at h1 h2 h3 h4 h5 h6 h7 h9 h10 h11 h12
    constructor <;> first | exact h8 | simp [*, CtlPc.stage]
  | joined f hpc hf | work f hpc hf | fencing f hpc hf | disconnect f hpc hf | effect f hpc hf
  | result f hpc hf =>
    simp [hpc, CtlPc.stage] at h1 h2 h3 h4 h5 h6 h7 h9 h10 h11 h12
    constructor <;> first | exact h8 | simp [*, CtlPc.stage]
  | kills pid hpc hi =>
    simp [hpc, CtlPc.stage] at h1 h2 h3 h5 h6 h9 h10 h11 h12
    constructor <;> first | exact h8 | simp [*, CtlPc.stage]
  | departs hpc =>
    simp [hpc, CtlPc.stage] at h1 h2 h3 h4 h5 h6 h9 h10 h11 h12
    constructor <;> simp [*, CtlPc.stage]
  | stays hpc =>
    simp [hpc, CtlPc.stage] at h1 h2 h3 h4 h5 h6 h9 h10 h11 h12
    constructor <;> simp [*, CtlPc.stage, Controller.raise]

theorem Collected.move (h : Collected c files) (hm : CtlMoves files c c') : Collected c' files := by
  obtain ⟨h1, h2, h3, h4, h5, h6, h7⟩ := id h
  cases hm with
  | raises => exact ⟨h1, h2, h3, h4, h5, h6, h7⟩
  | idents k i hpc hi | inits k hpc =>
    refine ⟨h1, h2, h3, h4, h5, ?_, h7⟩
    rw [hpc] at h6
    intro hs
    apply h6
    cases k <;> simp_all [CtlPc.stage, Conn.stage, Conn.next]
  | ready hpc hf => exact ⟨h1, h2, h3, h4, h5, fun _ => hf, h7⟩
  | _ => constructor <;> simp_all [CtlPc.stage, Conn.stage, Controller.raise]

/-- what a step of the controller leaves -/
structure Controller.Keeps (c c' : Controller) : Prop where
  stage : c.pc.stage ≤ c'.pc.stage
  known : 8 ≤ c.pc.stage → c'.locA = c.locA ∧ c'.locB = c.locB
  knownC : 18 ≤ c.pc.stage → c'.locC = c.locC

theorem CtlMoves.keeps (hm : CtlMoves files c c') : c.Keeps c' := by
  cases hm with
  | raises => exact ⟨Nat.le_refl _, fun _ => ⟨rfl, rfl⟩, fun _ => rfl⟩
  | idents k i hpc hi | inits k hpc =>
    refine ⟨?_, fun _ => ⟨rfl, rfl⟩, fun _ => rfl⟩
    cases k <;> simp [hpc, CtlPc.stage, Conn.stage, Conn.next]
  | _ => constructor <;> simp_all [CtlPc.stage, Conn.stage, Controller.raise]

/-! ## the invariant -/

/-- how the root may have ended by itself -/
def Root.endedWell (r : Root) : Prop := ∀ rc, r.exit = some (.self rc) →
  rc = 86 ∨ rc = 2 ∧ r.pc = .boot ∨ ∃ n, r.pc = .stop n ∧ (rc = n ∨ n = 0 ∧ rc = 6)

structure Inv (s : World) : Prop where
  shown : ∃ st, s.root.files = s.root.shown st
  begun : s.root.begun
  checked : s.root.Checked
  ended : s.root.endedWell
  planned : s.ctl.Planned
  collected : Collected s.ctl s.root.files
  known : 41 ≤ s.root.pc.stage →
    8 ≤ s.ctl.pc.stage ∧ s.root.roles.a = s.ctl.locA ∧ s.root.roles.b = s.ctl.locB
  knownC : 101 ≤ s.root.pc.stage → 20 ≤ s.ctl.pc.stage ∧ s.root.roles.c = s.ctl.locC

theorem Inv.agrees (h : Inv s) : s.root.agrees s.ctl.rolesFile := by
  intro hs ρ hρ
  obtain ⟨hstage, ha, hb⟩ := h.known hs
  rw [h.planned.rolesFile, if_pos hstage] at hρ
  cases hρ
  exact ⟨ha.symm, hb.symm⟩

theorem Root.endedWell_move (he : r.exit = none) (hm : RootMoves roles r r') : r'.endedWell := by
  intro rc hrc
  cases hm with
  | aborts hpc =>
    cases hrc
    exact .inr (.inl ⟨rfl, hpc⟩)
  | stops n code hpc hcode =>
    cases hrc
    exact .inr (.inr ⟨n, hpc, hcode⟩)
  | _ => cases he.symm.trans hrc

theorem Inv.root (h : Inv s) (he : s.root.exit = none) (hm : RootMoves s.ctl.rolesFile s.root r') :
    Inv { s with root := r' } := by
  refine ⟨Root.shown_move h.shown h.agrees hm, Root.begun_move h.begun hm, h.checked.move h.agrees hm,
    Root.endedWell_move he hm, h.planned, h.collected.grow (hm.grows h.shown), ?_, ?_⟩
  · intro hs
    rcases hm.learns with ⟨hroles, hstage, -⟩ | ⟨hroles, -⟩
    · rw [hroles]
      exact h.known (hstage hs)
    · rw [h.planned.rolesFile] at hroles
      split at hroles
      · rename_i hstage
        dsimp only
        rw [← Option.some.inj hroles]
        exact ⟨hstage, rfl, rfl⟩
      · cases hroles
  · intro hs
    rcases hm.learns with ⟨hroles, -, hstage⟩ | ⟨hroles, hsome⟩
    · rw [hroles]
      exact h.knownC (hstage hs)
    · have hc := hsome hs
      rw [h.planned.rolesFile] at hroles
      split at hroles
      · rw [← Option.some.inj hroles] at hc ⊢
        dsimp only at hc ⊢
        split at hc
        · rename_i hstage
          exact ⟨hstage, if_pos hstage⟩
        · cases hc
      · cases hroles

theorem Inv.ctl (h : Inv s) (hm : CtlMoves s.root.files s.ctl c') : Inv { s with ctl := c' } := by
  obtain ⟨hstage, hknown, hknownC⟩ := hm.keeps
  refine ⟨h.shown, h.begun, h.checked, h.ended, h.planned.move hm, h.collected.move hm, ?_, ?_⟩
  · intro hs
    obtain ⟨hc, ha, hb⟩ := h.known hs
    obtain ⟨hA, hB⟩ := hknown hc
    exact ⟨Nat.le_trans hc hstage, ha.trans hA.symm, hb.trans hB.symm⟩
  · intro hs
    obtain ⟨hc, hC⟩ := h.knownC hs
    exact ⟨Nat.le_trans hc hstage, hC.trans (hknownC (by omega)).symm⟩

/-- the end of the root changes nothing else -/
theorem Inv.rootEnds (h : Inv s) {e : Option Exit}
    (he : ∀ rc, e = some (.self rc) → rc = 86 ∨ s.root.exit = some (.self rc)) :
    Inv { s with root := { s.root with exit := e } } := by
  obtain ⟨h1, h2, h3, h4, h5, h6, h7, h8, h9⟩ := h.checked
  refine ⟨h.shown, h.begun, ⟨h1, h2, h3, h4, h5, h6, h7, h8, h9⟩, ?_, h.planned, h.collected,
    h.known, h.knownC⟩
  intro rc hrc
  rcases he rc hrc with rfl | hold
  · exact .inl rfl
  · exact h.ended rc hold

theorem Inv.start : Inv {} := by
  refine ⟨⟨none, rfl⟩, fun hne => absurd rfl hne, ?_, ?_, ?_, ?_, ?_, ?_⟩
  · constructor <;> simp
  · intro rc h
    cases h
  · constructor <;> simp [CtlPc.stage]
  · constructor <;> simp [CtlPc.stage]
  · simp
  · simp

theorem Inv.step (h : Inv s) (act : Act) (hs : step s act = some s') : Inv s' := by
  cases act with
  | root a =>
    simp only [Recovery.step] at hs
    split at hs
    · rename_i he
      obtain ⟨r', hr, rfl⟩ := Option.map_eq_some_iff.mp hs
      exact h.root he (root_moves hr)
    · cases hs
  | ctl a =>
    simp only [Recovery.step] at hs
    split at hs
    · obtain ⟨c', hc, rfl⟩ := Option.map_eq_some_iff.mp hs
      exact h.ctl (ctl_moves hc)
    · cases hs
  | fail =>
    simp only [Recovery.step] at hs
    split at hs <;> cases hs
    exact h.ctl .raises
  | close =>
    simp only [Recovery.step] at hs
    split at hs <;> cases hs
    have hended := h.rootEnds (e := s.root.exit <|> some .killed) (by
      intro rc hrc
      cases he : s.root.exit with
      | none =>
        rw [he] at hrc
        cases hrc
      | some e =>
        rw [he] at hrc
        exact .inr hrc)
    obtain ⟨p1, p2, p3, p4, p5, p6, p7, p8, p9, p10, p11, p12⟩ := h.planned
    obtain ⟨c1, c2, c3, c4, c5, c6, c7⟩ := h.collected
    exact ⟨hended.shown, hended.begun, hended.checked, hended.ended,
      ⟨p1, p2, p3, p4, p5, p6, p7, p8, p9, p10, p11, p12⟩, ⟨c1, c2, c3, c4, c5, c6, c7⟩, h.known,
      h.knownC⟩
  | crash hardTimeout =>
    simp only [Recovery.step] at hs
    split at hs <;> cases hs
    apply h.rootEnds
    intro rc hrc
    split at hrc <;> cases hrc
    exact .inl rfl

theorem inv_reach (h : Reach Recovery.step {} s) : Inv s :=
  h.inv (fun _ act _ hi hs => hi.step act hs) Inv.start

/-! ## what a marker tells -/

theorem of_shown {F : Type} {p : Prop} [Decidable p] {x f : F}
    (h : (if p then some x else none) = some f) : p ∧ f = x := by
  split at h
  · rename_i hp
    exact ⟨hp, (Option.some.inj h).symm⟩
  · cases h

theorem Inv.joinedFile (h : Inv s) {f : JoinedFile} (hf : s.root.files.joined = some f) :
    60 ≤ s.root.pc.stage ∧ f = s.root.joinedFile := by
  obtain ⟨st, hfiles⟩ := h.shown
  rw [hfiles] at hf
  exact of_shown hf

theorem Inv.workFile (h : Inv s) {f : WorkFile} (hf : s.root.files.work = some f) :
    70 ≤ s.root.pc.stage ∧ f = s.root.workFile := by
  obtain ⟨st, hfiles⟩ := h.shown
  rw [hfiles] at hf
  exact of_shown hf

theorem Inv.fencingFile (h : Inv s) {f : FencingFile} (hf : s.root.files.fencing = some f) :
    80 ≤ s.root.pc.stage ∧ f = s.root.fencingFile := by
  obtain ⟨st, hfiles⟩ := h.shown
  rw [hfiles] at hf
  exact of_shown hf

theorem Inv.disconnectFile (h : Inv s) {f : DisconnectFile} (hf : s.root.files.disconnect = some f) :
    83 ≤ s.root.pc.stage ∧ f = s.root.disconnectFile := by
  obtain ⟨st, hfiles⟩ := h.shown
  rw [hfiles] at hf
  exact of_shown hf

theorem Inv.effectFile (h : Inv s) {f : EffectFile} (hf : s.root.files.effect = some f) :
    84 ≤ s.root.pc.stage ∧ f = s.root.effectFile := by
  obtain ⟨st, hfiles⟩ := h.shown
  rw [hfiles] at hf
  exact of_shown hf

theorem Inv.readyFile (h : Inv s) (hf : s.root.files.ready = true) : 86 ≤ s.root.pc.stage := by
  obtain ⟨st, hfiles⟩ := h.shown
  rw [hfiles] at hf
  exact of_decide_eq_true hf

theorem Inv.resultFile (h : Inv s) {f : ResultFile} (hf : s.root.files.result = some f) :
    120 ≤ s.root.pc.stage ∧ f = s.root.resultFile := by
  obtain ⟨st, hfiles⟩ := h.shown
  rw [hfiles] at hf
  exact of_shown hf

theorem Inv.targets (h : Inv s) (hs : 82 ≤ s.root.pc.stage) : s.root.targets = [s.ctl.locB] := by
  rw [h.checked.targets, if_pos hs, h.checked.peerB (by omega), (h.known (by omega)).2.2]

theorem Inv.attempt (h : Inv s) (hs : 81 ≤ s.root.pc.stage) :
    ∃ a, s.root.last = some a ∧ a.rejected = true := by
  have hany := h.checked.attempt.trans (h.checked.fenced hs)
  cases hl : s.root.last with
  | none =>
    rw [hl] at hany
    cases hany
  | some a =>
    rw [hl] at hany
    exact ⟨a, rfl, hany⟩

/-! ## runs -/

def roots (n : Nat) (a : Answer) : List Act := List.replicate n (.root a)

def ctls (n : Nat) (a : Answer) : List Act := List.replicate n (.ctl a)

/-- `a` is 1, `b` is 2 and the replacement will be 3 -/
def island : Answer where
  peers := [⟨1, 11⟩, ⟨2, 12⟩, ⟨3, 13⟩]
  reply := .ran 1
  reply' := .ran 2
  ident := some (7, 7)
  fence := ⟨true, .failed, 5⟩

/-- the root starts, the two connectors join, and their work is right -/
def bringUp : List Act :=
  roots 1 island ++ ctls 2 island ++ [.ctl { island with locality := 1 }] ++ ctls 2 island ++
    [.ctl { island with locality := 2 }] ++ ctls 2 island ++ roots 5 island

/-- `b` is killed, fenced and disconnected -/
def lossMoves : List Act := ctls 4 island ++ roots 6 { island with reply := .late }

/-- the replacement joins, and the root ends -/
def replaceMoves : List Act :=
  ctls 5 island ++ [.ctl { island with locality := 3 }] ++ ctls 2 island ++ roots 2 island ++
    [.root { island with reply := .ran 3, reply' := .late }] ++ ctls 2 island ++ roots 2 island

def recoveryMoves : List Act := bringUp ++ lossMoves ++ replaceMoves

/-! ## the order of a recovery -/

/-- **What precedes what**, whatever HPX and Ray answer and whenever the root is killed: the only process
that the crash injection kills is that of `b`, once, after `b` was found to be connecting and its work
was tried; the only locality that is disconnected is that of `b`, once, after the work was right and
`check_admission` has rejected `b`; the replacement is started after both; and a result is of that replacement. -/
theorem recovery_order (h : Reach Recovery.step {} s) :
    (∀ p ∈ s.ctl.killed, s.ctl.killed = [p] ∧ s.ctl.bIdent = some (p, p) ∧
      s.root.files.work.isSome = true ∧ ∃ f, s.root.files.joined = some f ∧ f.bConnecting = true) ∧
    (∀ l ∈ s.root.targets, s.root.targets = [l] ∧ l = s.ctl.locB ∧
      (s.root.probeA.ok = true ∧ s.root.probeB.ok = true) ∧
      ∃ a, s.root.last = some a ∧ a.rejected = true) ∧
    (s.ctl.locC.isSome = true → s.ctl.killed.length = 1 ∧ s.root.targets = [s.ctl.locB]) ∧
    (∀ f, s.root.files.result = some f → s.root.targets = [s.ctl.locB] ∧
      s.ctl.locC = some s.root.peerC.locality) := by
  have hi := inv_reach h
  refine ⟨?_, ?_, ?_, ?_⟩
  · intro p hp
    have hstage : 11 ≤ s.ctl.pc.stage := by
      by_contra hlt
      rw [hi.planned.killed, if_neg hlt] at hp
      cases hp
    have hident := hi.planned.target hstage
    obtain ⟨w, hw⟩ := Option.isSome_iff_exists.mp (hi.planned.work.trans (decide_eq_true (by omega)))
    have hwork := hi.collected.work w hw
    obtain ⟨f, hf⟩ := Option.isSome_iff_exists.mp (hi.planned.joined.trans (decide_eq_true (by omega)))
    have hjoined := hi.collected.joined f hf
    have hkilled := hi.planned.killed
    rw [if_pos hstage] at hkilled
    cases hb : s.ctl.bIdent with
    | none =>
      rw [hb] at hident
      cases hident
    | some q =>
      rw [hb] at hident hkilled
      have heq : q.1 = q.2 := eq_of_beq hident
      rw [hkilled] at hp
      obtain rfl : p = q.1 := List.mem_singleton.mp hp
      refine ⟨hkilled, ?_, by rw [hwork]; rfl, f, hjoined, ?_⟩
      · rw [show q = (q.1, q.2) from rfl, ← heq]
      · rw [(hi.joinedFile hjoined).2]
        have := (hi.workFile hwork).1
        exact hi.checked.connecting (by omega)
  · intro l hl
    have hstage : 82 ≤ s.root.pc.stage := by
      by_contra hlt
      rw [hi.checked.targets, if_neg hlt] at hl
      cases hl
    have htargets := hi.targets hstage
    rw [htargets] at hl
    obtain rfl := List.mem_singleton.mp hl
    exact ⟨htargets, rfl, hi.checked.work (by omega), hi.attempt (by omega)⟩
  · intro hc
    have hstage : 18 ≤ s.ctl.pc.stage := of_decide_eq_true (hi.planned.locC.symm.trans hc)
    have hroot := hi.readyFile (hi.collected.ready (by omega))
    refine ⟨?_, hi.targets (by omega)⟩
    have hident := hi.planned.target (by omega)
    rw [hi.planned.killed, if_pos (by omega)]
    cases hb : s.ctl.bIdent with
    | none =>
      rw [hb] at hident
      cases hident
    | some q => rfl
  · intro f hf
    obtain ⟨hstage, -⟩ := hi.resultFile hf
    refine ⟨hi.targets (by omega), ?_⟩
    rw [← (hi.knownC (by omega)).2]
    exact hi.checked.peerC hstage

theorem recoveryMoves_end : ∃ s, run Recovery.step {} recoveryMoves = some s ∧
    s.root.files.note = some 0 ∧ s.ctl.locC.isSome = true ∧ s.ctl.m.result.isSome = true :=
  ⟨_, rfl, rfl, rfl, rfl⟩

theorem recovery_order_replaced : ∃ s, Reach Recovery.step {} s ∧ s.ctl.killed.length = 1 ∧
    s.root.targets = [s.ctl.locB] := by
  obtain ⟨s, hrun, -, hc, -⟩ := recoveryMoves_end
  have h : Reach Recovery.step {} s := ⟨recoveryMoves, hrun⟩
  exact ⟨s, h, (recovery_order h).2.2.1 hc⟩

/-- where a root that has given up with `n` stands -/
theorem stop_stage (n k : Nat) (hk : k ≤ 120) :
    k ≤ (RootPc.stop n).stage ↔ n = 0 ∨ k ≤ 10 * n := by
  show k ≤ (if n = 0 then 120 else 10 * n) ↔ _
  split <;> omega

/-- **What the note of the root tells**: it is 0 or from 3 to 11, the markers that are there are those of
the parts before the check that failed, and the root ends with it, but for the hard timeout; 6 is also
the end of a root that has come through and could not stop. -/
theorem finish_tells (h : Reach Recovery.step {} s) {n : Nat} (hn : s.root.files.note = some n) :
    (n = 0 ∨ 3 ≤ n ∧ n ≤ 11) ∧
    s.root.files.started = some true ∧
    (s.root.files.joined.isSome = true ↔ n = 0 ∨ 6 ≤ n) ∧
    (s.root.files.work.isSome = true ↔ n = 0 ∨ 7 ≤ n) ∧
    (s.root.files.fencing.isSome = true ↔ n = 0 ∨ 8 ≤ n) ∧
    (s.root.targets ≠ [] ↔ n = 0 ∨ 9 ≤ n) ∧
    (s.root.files.disconnect.isSome = true ↔ n = 0 ∨ 9 ≤ n) ∧
    (s.root.files.effect.isSome = true ↔ n = 0 ∨ 9 ≤ n) ∧
    (s.root.files.ready = true ↔ n = 0 ∨ 9 ≤ n) ∧
    (s.root.files.result.isSome = true ↔ n = 0) ∧
    ∀ rc, s.root.exit = some (.self rc) → rc = 86 ∨ rc = n ∨ n = 0 ∧ rc = 6 := by
  have hi := inv_reach h
  obtain ⟨st, hfiles⟩ := hi.shown
  have hpc : s.root.pc = .stop n := by
    rw [hfiles] at hn
    change s.root.pc.noted = some n at hn
    cases hp : s.root.pc with
    | stop m =>
      rw [hp] at hn
      cases hn
      rfl
    | _ =>
      rw [hp] at hn
      cases hn
  have hcode := hi.checked.code n (.inr hpc)
  have hstage : ∀ k ≤ 120, k ≤ s.root.pc.stage ↔ n = 0 ∨ k ≤ 10 * n := by
    rw [hpc]
    exact stop_stage n
  refine ⟨hcode, hi.begun (by rw [hpc]; exact RootPc.noConfusion), ?_, ?_, ?_, ?_, ?_, ?_, ?_, ?_, ?_⟩
  · rw [hfiles]
    exact Option.isSome_ite.trans ((hstage 60 (by omega)).trans (by omega))
  · rw [hfiles]
    exact Option.isSome_ite.trans ((hstage 70 (by omega)).trans (by omega))
  · rw [hfiles]
    exact Option.isSome_ite.trans ((hstage 80 (by omega)).trans (by omega))
  · rw [hi.checked.targets]
    have h82 := hstage 82 (by omega)
    split
    · rename_i hle
      have hn' := h82.mp hle
      exact ⟨fun _ => by omega, fun _ => List.cons_ne_nil _ _⟩
    · rename_i hlt
      exact ⟨fun hne => absurd rfl hne, fun hn' => absurd (h82.mpr (by omega)) hlt⟩
  · rw [hfiles]
    exact Option.isSome_ite.trans ((hstage 83 (by omega)).trans (by omega))
  · rw [hfiles]
    exact Option.isSome_ite.trans ((hstage 84 (by omega)).trans (by omega))
  · rw [hfiles]
    exact decide_eq_true_iff.trans ((hstage 86 (by omega)).trans (by omega))
  · rw [hfiles]
    exact Option.isSome_ite.trans ((hstage 120 (by omega)).trans (by omega))
  · intro rc hrc
    rcases hi.ended rc hrc with h86 | ⟨-, hboot⟩ | ⟨m, hm, hend⟩
    · exact .inl h86
    · cases hpc.symm.trans hboot
    · cases hpc.symm.trans hm
      exact .inr hend

theorem finish_tells_zero : ∃ s, Reach Recovery.step {} s ∧ s.root.files.result.isSome = true := by
  obtain ⟨s, hrun, hn, -, -⟩ := recoveryMoves_end
  have h : Reach Recovery.step {} s := ⟨recoveryMoves, hrun⟩
  exact ⟨s, h, (finish_tells h hn).2.2.2.2.2.2.2.2.2.1.mpr rfl⟩

end Recovery
end RayX
