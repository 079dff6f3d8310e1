import RayX.Experiments.DemandRoot
import RayX.Experiments.DemandConn

/-!
# The order of a demand-triggered admission

* `CtlMoves`, `ctl_moves`   what a step of the controller can do, and `Arranged` where it is;
* `Inv`                     the three parties together, with one lemma for each of them;
* `Timed`                   the time stamps of the files;
* `demand_order`            **what precedes what**, over every interleaving;
* `deadman_silent`          **what the deadman of the connector is right about**.
-/

namespace RayX
namespace Demand
open Sys

variable {cfg : Config} {s s' : World} {a : Answer}

/-! ## the controller -/

/-- the part of the program that a place is in -/
def CtlPc.stage : CtlPc → Nat
  | .waitReady => 0
  | .waitLocal => 1
  | .dwell => 2
  | .issue => 3
  | .stamp => 4
  | .popen => 5
  | .waitServed => 6
  | .waitConn => 7
  | .waitRoot => 8
  | .collect => 9
  | .finished => 10

/-- the step of the controller from `s` -/
inductive CtlMoves (cfg : Config) (s : World) : World → Prop
  | readies (hpc : s.ctl.pc = .waitReady) : CtlMoves cfg s { s with ctl := { s.ctl with pc := .waitLocal } }
  | dwells (done : Bool) (hpc : s.ctl.pc = .waitReady ∧ done = s.ctl.localDone ∨ s.ctl.pc = .waitLocal ∧
      done = s.root.files.localPhase.isSome) : CtlMoves cfg s { s with ctl := { s.ctl with
        localDone := done
        dwellEnd := s.now + cfg.dwell
        pc := .dwell } }
  | wakes (hpc : s.ctl.pc = .dwell) (hle : s.ctl.dwellEnd ≤ s.now) :
      CtlMoves cfg s { s with ctl := { s.ctl with pc := .issue } }
  | demands (hpc : s.ctl.pc = .issue) (harm : cfg.arm = .demand) :
      CtlMoves cfg s { s with ctl := { s.ctl with
        demand := some (wall s.now)
        pc := if s.ctl.localDone then .stamp else .waitRoot } }
  | finishes (hpc : s.ctl.pc = .issue) (harm : cfg.arm = .noDemand) :
      CtlMoves cfg s { s with ctl := { s.ctl with finishFile := true, pc := .waitRoot } }
  | stamps (hpc : s.ctl.pc = .stamp) :
      CtlMoves cfg s { s with ctl := { s.ctl with popenWall := some (wall s.now), pc := .popen } }
  | popens (hpc : s.ctl.pc = .popen) :
      CtlMoves cfg s { s with conn := { s.conn with pc := .born }, ctl := { s.ctl with pc := .waitServed } }
  | looks (hpc : s.ctl.pc = .waitServed) :
      CtlMoves cfg s { s with ctl := { s.ctl with pc := .waitConn } }
  | reaps {e : Exit} (hpc : s.ctl.pc = .waitConn) (he : s.conn.exit = some e) :
      CtlMoves cfg s { s with ctl := { s.ctl with connRep := some e, pc := .waitRoot } }
  | kills (hpc : s.ctl.pc = .waitConn) : CtlMoves cfg s { s with
      conn := { s.conn with exit := s.conn.exit <|> some .killed }
      ctl := { s.ctl with connRep := some .killed, pc := .waitRoot } }
  | reapsRoot {e : Exit} (hpc : s.ctl.pc = .waitRoot) (he : s.root.exit = some e) :
      CtlMoves cfg s { s with ctl := { s.ctl with rootRep := some e, pc := .collect } }
  | killsRoot (hpc : s.ctl.pc = .waitRoot) : CtlMoves cfg s { s with
      root := { s.root with exit := s.root.exit <|> some .killed }
      ctl := { s.ctl with rootRep := some .killed, pc := .collect } }
  | collects (o : Option (List String)) (hpc : s.ctl.pc = .collect) :
      CtlMoves cfg s { s with ctl := { s.ctl with orphans := o, pc := .finished } }

/-- **What a step of the controller can do.** -/
theorem ctl_moves (h : ctlGo cfg s a = some s') : CtlMoves cfg s s' := by
  unfold ctlGo at h
  dsimp only at h
  split at h
  · rename_i hpc
    split at h
    · split at h
      · cases h
        exact .readies hpc
      · cases h
        exact .dwells _ (.inl ⟨hpc, rfl⟩)
    · cases h
  · rename_i hpc
    split at h
    · rename_i hseen
      cases h
      exact .dwells _ (.inr ⟨hpc, hseen⟩)
    · cases h
  · rename_i hpc
    split at h
    · rename_i hle
      cases h
      exact .wakes hpc hle
    · cases h
  · rename_i hpc
    split at h
    · rename_i harm
      cases h
      exact .demands hpc harm
    · rename_i harm
      cases h
      exact .finishes hpc harm
  · rename_i hpc
    cases h
    exact .stamps hpc
  · rename_i hpc
    cases h
    exact .popens hpc
  · rename_i hpc
    cases h
    exact .looks hpc
  · rename_i hpc
    split at h
    · obtain ⟨e, he, rfl⟩ := Option.map_eq_some_iff.mp h
      exact .reaps hpc he
    · cases h
      exact .kills hpc
  · rename_i hpc
    split at h
    · obtain ⟨e, he, rfl⟩ := Option.map_eq_some_iff.mp h
      exact .reapsRoot hpc he
    · cases h
      exact .killsRoot hpc
  · rename_i hpc
    cases h
    exact .collects _ hpc
  · cases h

/-- the controller is where its files put it; the parts from `stamp` to `waitConn` are those of a
connector -/
structure Arranged (cfg : Config) (c : Controller) : Prop where
  localDone : c.localDone = true → 2 ≤ c.pc.stage
  launch : 4 ≤ c.pc.stage → c.pc.stage ≤ 7 → cfg.arm = .demand ∧ c.localDone = true
  demand : c.demand.isSome = decide (cfg.arm = .demand ∧ 4 ≤ c.pc.stage)
  finishFile : c.finishFile = decide (cfg.arm = .noDemand ∧ 4 ≤ c.pc.stage)
  popenWall : c.popenWall.isSome = decide (cfg.arm = .demand ∧ c.localDone = true ∧ 5 ≤ c.pc.stage)

theorem Arranged.moves (h : Arranged cfg s.ctl) (hm : CtlMoves cfg s s') : Arranged cfg s'.ctl := by
  obtain ⟨hlocal, hlaunch, hdemand, hfinish, hpopen⟩ := h
  cases hm with
  | dwells done hpc =>
    rcases hpc with ⟨hpc, rfl⟩ | ⟨hpc, rfl⟩ <;> constructor <;> simp_all [CtlPc.stage]
  | demands hpc harm =>
    cases hd : s.ctl.localDone <;> constructor <;> simp_all [CtlPc.stage]
  | readies hpc | wakes hpc | finishes hpc | stamps hpc | popens hpc | looks hpc | reaps hpc
  | kills hpc | reapsRoot hpc | killsRoot hpc | collects _ hpc =>
    constructor <;> simp_all [CtlPc.stage]

/-! ## the parties together -/

/-- who has done what, whatever the order of the steps was -/
structure Inv (cfg : Config) (s : World) : Prop where
  placed : Placed s.root
  filed : Filed cfg s.root
  sent : Sent s.root
  enrolled : Enrolled s.conn
  arranged : Arranged cfg s.ctl
  beats : Deadman.Beats s.root.files.beats s.now
  watched : Watched cfg s.root.files.beats s.now s.conn
  clock : msec ≤ s.now
  launched : s.conn.pc ≠ .absent → 6 ≤ s.ctl.pc.stage ∧ cfg.arm = .demand ∧ s.ctl.localDone = true
  ready : s.ctl.localDone = true → 3 ≤ s.root.pc.stage
  guest : ∀ g, s.guest = some g → s.conn.id = some g
  idsStart : 1 ≤ s.root.pc.stage → s.root.idsStart = [here]
  idsBaseline : 2 ≤ s.root.pc.stage → s.root.idsBaseline = [here]
  admitted : s.root.admitted = true → s.conn.id = some s.root.newId
  reply : ∀ v, s.reply = some v → ∃ g, s.root.parcel = some g ∧ v = distProbe (cfg.arg 42) g
  heard : s.conn.reason = .rootCompletionSignal → s.root.files.rootDone = true
  parted : s.root.leaveObserved = true → s.root.admitted = true ∧ s.guest = none
  lively : s.root.livenessOk = 0 ↔ s.root.firstLiveness = 0
  ended : s.root.exit = some (.self 0) → s.root.pc.stage = 13
  rootRep : ∀ rc, s.ctl.rootRep = some (.self rc) → s.root.exit = some (.self rc)
  connRep : ∀ rc, s.ctl.connRep = some (.self rc) → s.conn.exit = some (.self rc)

theorem wall_pos (h : Inv cfg s) : 0 < wall s.now :=
  Nat.div_pos h.clock (by decide)

/-- before its baseline is on the disk the root is alone -/
theorem Inv.early (h : Inv cfg s) (hs : s.root.pc.stage ≤ 2) : s.conn.pc = .absent ∧ s.guest = none := by
  have habsent : s.conn.pc = .absent := by
    by_contra hne
    have := h.ready (h.launched hne).2.2
    omega
  refine ⟨habsent, ?_⟩
  cases hg : s.guest with
  | none => rfl
  | some g =>
    have hid := h.enrolled.id
    rw [h.guest g hg, habsent] at hid
    cases hid

theorem Inv.members_early (h : Inv cfg s) (hs : s.root.pc.stage ≤ 2) : s.members = [here] := by
  rw [World.members, (h.early hs).2]
  rfl

/-- a member that is not in the baseline of a root that was alone -/
theorem guest_of_member {l : UInt32} (hl : l ∈ s.members) (hnew : l ∉ [here]) : s.guest = some l := by
  rcases List.mem_cons.mp hl with rfl | hl
  · exact absurd List.mem_cons_self hnew
  · exact Option.mem_toList.mp hl

theorem Inv.root {r' : Root} (h : Inv cfg s) (hx : s.root.exit = none)
    (hm : RootMoves cfg s.rootView s.root r') : Inv cfg { s with root := r' } := by
  have hstage := hm.stage
  refine { placed := h.placed.moves hm, filed := h.filed.moves h.placed hm,
           sent := h.sent.moves h.placed hm h.reply, enrolled := h.enrolled, arranged := h.arranged,
           beats := ?_, watched := ?_, clock := h.clock, launched := h.launched,
           ready := fun hl => Nat.le_trans (h.ready hl) hstage, guest := h.guest, idsStart := ?_,
           idsBaseline := ?_, admitted := ?_, reply := ?_, heard := fun hr => hm.done (h.heard hr),
           parted := ?_, lively := hm.lively (wall_pos h) h.lively, ended := ?_, rootRep := ?_,
           connRep := h.connRep }
  · rcases hm.beating with hb | hb
    · show Deadman.Beats r'.files.beats s.now
      rw [hb]
      exact h.beats
    · show Deadman.Beats r'.files.beats s.now
      rw [hb]
      exact h.beats.cons
  · rcases hm.beating with hb | hb
    · show Watched cfg r'.files.beats s.now s.conn
      rw [hb]
      exact h.watched
    · show Watched cfg r'.files.beats s.now s.conn
      rw [hb]
      exact h.watched.beat
  · intro hs
    obtain ⟨hnew, hsame, -, -⟩ := hm.snaps
    show r'.idsStart = [here]
    rcases Nat.eq_zero_or_pos s.root.pc.stage with h0 | h1
    · rw [hnew h0]
      exact h.members_early (by omega)
    · rw [hsame h1]
      exact h.idsStart h1
  · intro hs
    obtain ⟨-, -, hnew, hsame⟩ := hm.snaps
    show r'.idsBaseline = [here]
    rcases Nat.lt_or_ge s.root.pc.stage 2 with h1 | h2
    · rw [hnew (by omega) hs]
      exact h.members_early (by omega)
    · rw [hsame h2]
      exact h.idsBaseline h2
  · intro ha
    show s.conn.id = some r'.newId
    rcases hm.admission with ⟨had, hid⟩ | ⟨_, hpc, _, hl, hnew⟩
    · rw [hid]
      exact h.admitted (had.symm.trans ha)
    · rw [h.idsBaseline (by rw [hpc]; decide)] at hnew
      exact h.guest _ (guest_of_member hl hnew)
  · intro res hr
    obtain ⟨g, hg, he⟩ := h.reply res hr
    exact ⟨g, hm.sent h.sent hg, he⟩
  · intro hl
    rcases hm.parting hl with hl | ⟨hpc, hgone⟩
    · obtain ⟨ha, hg⟩ := h.parted hl
      refine ⟨?_, hg⟩
      rcases hm.admission with ⟨had, _⟩ | ⟨_, _, had, _⟩
      · exact had.trans ha
      · exact had
    · have ha : s.root.admitted = true := h.placed.late (by rw [hpc]; decide) (by rw [hpc]; decide)
      refine ⟨?_, ?_⟩
      · rcases hm.admission with ⟨had, _⟩ | ⟨_, _, had, _⟩
        · exact had.trans ha
        · exact had
      · cases hg : s.guest with
        | none => rfl
        | some g =>
          have hid := (h.admitted ha).symm.trans (h.guest g hg)
          cases hid
          refine absurd ?_ hgone
          show s.root.newId ∈ here :: s.guest.toList
          simp [hg]
  · intro he
    exact hm.exits hx he
  · intro rc hr
    have he := h.rootRep rc hr
    rw [hx] at he
    cases he

theorem Inv.conn {c' : Connector} {g : Option UInt32} (h : Inv cfg s) (hx : s.conn.exit = none)
    (hm : ConnMoves cfg (s.connView cfg) s.conn c' g) :
    Inv cfg { s with conn := c', guest := g } := by
  refine { placed := h.placed, filed := h.filed, sent := h.sent, enrolled := h.enrolled.moves hx hm,
           arranged := h.arranged, beats := h.beats,
           watched := h.watched.moves h.enrolled h.beats rfl hm, clock := h.clock,
           launched := fun _ => h.launched hm.present, ready := h.ready, guest := hm.guest h.guest,
           idsStart := h.idsStart, idsBaseline := h.idsBaseline, admitted := ?_, reply := h.reply,
           heard := ?_, parted := ?_, lively := h.lively, ended := h.ended, rootRep := h.rootRep,
           connRep := ?_ }
  · exact fun ha => (hm.enrolled (h.admitted ha) h.enrolled).1
  · intro hr
    exact (hm.heard hr).elim h.heard id
  · intro hl
    obtain ⟨ha, hg⟩ := h.parted hl
    refine ⟨ha, ?_⟩
    rcases (hm.enrolled (h.admitted ha) h.enrolled).2 with he | he
    · exact he.trans hg
    · exact he
  · intro rc hr
    have he := h.connRep rc hr
    rw [hx] at he
    cases he

/-- a move of the controller alone -/
theorem Inv.alone {c' : Controller} (h : Inv cfg s) (ha : Arranged cfg c')
    (hstage : s.ctl.pc.stage ≤ c'.pc.stage) (hlocal : c'.localDone = s.ctl.localDone)
    (hroot : ∀ rc, c'.rootRep = some (.self rc) → s.root.exit = some (.self rc))
    (hconn : ∀ rc, c'.connRep = some (.self rc) → s.conn.exit = some (.self rc)) :
    Inv cfg { s with ctl := c' } := by
  refine { h with arranged := ha, launched := ?_, ready := ?_, rootRep := hroot, connRep := hconn }
  · intro hpc
    obtain ⟨hs, harm, hl⟩ := h.launched hpc
    exact ⟨Nat.le_trans hs hstage, harm, hlocal.trans hl⟩
  · intro hl
    exact h.ready (hlocal.symm.trans hl)

/-- a process ends otherwise than by itself -/
theorem Inv.rootExit (h : Inv cfg s) (e : Option Exit)
    (h0 : e = some (.self 0) → s.root.exit = some (.self 0))
    (hrep : ∀ rc, s.ctl.rootRep = some (.self rc) → e = some (.self rc)) :
    Inv cfg { s with root := { s.root with exit := e } } :=
  { h with
    placed := ⟨h.placed.written, h.placed.early, h.placed.late⟩
    filed := ⟨h.filed.ready, h.filed.localPhase, h.filed.admission, h.filed.served, h.filed.leave,
      h.filed.result⟩
    sent := ⟨h.sent.parcel, h.sent.target, h.sent.settled, h.sent.returned⟩
    ended := fun he => h.ended (h0 he)
    rootRep := hrep }

theorem Inv.connExit (h : Inv cfg s) (e : Option Exit)
    (h0 : e = some (.self 0) → s.conn.exit = some (.self 0))
    (hrep : ∀ rc, s.ctl.connRep = some (.self rc) → e = some (.self rc)) :
    Inv cfg { s with conn := { s.conn with exit := e } } :=
  { h with
    enrolled := { h.enrolled with exit := fun he => h.enrolled.exit (h0 he) }
    watched := h.watched.same rfl (.inl rfl) id id
    connRep := hrep }

theorem killed_self {e : Option Exit} {rc : Int} : (e <|> some .killed) = some (.self rc) ↔
    e = some (.self rc) := by
  cases e <;> simp

theorem Inv.ctl (h : Inv cfg s) (hm : CtlMoves cfg s s') : Inv cfg s' := by
  have harr := h.arranged.moves hm
  cases hm with
  | readies hpc =>
    exact h.alone harr (by simp [hpc, CtlPc.stage]) rfl h.rootRep h.connRep
  | dwells done hpc =>
    have hpc' : s.ctl.pc.stage ≤ 1 := by
      rcases hpc with ⟨hpc, _⟩ | ⟨hpc, _⟩ <;> rw [hpc] <;> decide
    refine { h with arranged := harr, launched := ?_, ready := ?_ }
    · intro hne
      have := (h.launched hne).1
      omega
    · intro hl
      rcases hpc with ⟨_, rfl⟩ | ⟨_, rfl⟩
      · exact h.ready hl
      · exact of_decide_eq_true (h.placed.files.2.1.symm.trans hl)
  | wakes hpc =>
    exact h.alone harr (by simp [hpc, CtlPc.stage]) rfl h.rootRep h.connRep
  | demands hpc =>
    refine h.alone harr ?_ rfl h.rootRep h.connRep
    rw [hpc]
    show 3 ≤ CtlPc.stage (if s.ctl.localDone then .stamp else .waitRoot)
    split <;> decide
  | finishes hpc =>
    exact h.alone harr (by simp [hpc, CtlPc.stage]) rfl h.rootRep h.connRep
  | stamps hpc =>
    exact h.alone harr (by simp [hpc, CtlPc.stage]) rfl h.rootRep h.connRep
  | popens hpc =>
    have habsent : s.conn.pc = .absent := by
      by_contra hne
      have := (h.launched hne).1
      rw [hpc] at this
      exact absurd this (by decide)
    have hlaunch := h.arranged.launch (by rw [hpc]; decide) (by rw [hpc]; decide)
    refine { h with arranged := harr, enrolled := ?_, watched := ?_, launched := ?_ }
    · obtain ⟨h1, h2, h3, h4, h5, h6, h7⟩ := h.enrolled
      constructor <;> simp_all [ConnPc.stage]
    · refine h.watched.same rfl (.inl rfl) ?_ ?_
      · intro hr
        cases hr
      · intro hr
        cases hr
    · exact fun _ => ⟨Nat.le_refl 6, hlaunch⟩
  | looks hpc =>
    exact h.alone harr (by simp [hpc, CtlPc.stage]) rfl h.rootRep h.connRep
  | reaps hpc he =>
    refine h.alone harr (by simp [hpc, CtlPc.stage]) rfl h.rootRep ?_
    rintro rc ⟨⟩
    exact he
  | kills hpc =>
    have hk := h.connExit (s.conn.exit <|> some .killed) killed_self.mp
      fun rc hr => killed_self.mpr (h.connRep rc hr)
    refine hk.alone harr (by simp [hpc, CtlPc.stage]) rfl hk.rootRep ?_
    intro rc hr
    cases hr
  | reapsRoot hpc he =>
    refine h.alone harr (by simp [hpc, CtlPc.stage]) rfl ?_ h.connRep
    rintro rc ⟨⟩
    exact he
  | killsRoot hpc =>
    have hk := h.rootExit (s.root.exit <|> some .killed) killed_self.mp
      fun rc hr => killed_self.mpr (h.rootRep rc hr)
    refine hk.alone harr (by simp [hpc, CtlPc.stage]) rfl ?_ hk.connRep
    intro rc hr
    cases hr
  | collects o hpc =>
    exact h.alone harr (by simp [hpc, CtlPc.stage]) rfl h.rootRep h.connRep

theorem Inv.step (h : Inv cfg s) (act : Act) (hs : step cfg s act = some s') : Inv cfg s' := by
  cases act with
  | tick d =>
    cases hs
    exact { h with
      beats := h.beats.later (Nat.le_add_right _ _)
      watched := h.watched.later d
      clock := Nat.le_trans h.clock (Nat.le_add_right _ _) }
  | root a =>
    simp only [Demand.step] at hs
    split at hs
    · rename_i hx
      obtain ⟨r', hr, rfl⟩ := Option.map_eq_some_iff.mp hs
      exact h.root hx (root_moves hr)
    · cases hs
  | conn a =>
    simp only [Demand.step] at hs
    split at hs
    · rename_i hx
      obtain ⟨⟨c', g⟩, hc, rfl⟩ := Option.map_eq_some_iff.mp hs
      exact h.conn hx (conn_moves hc)
    · cases hs
  | ctl a => exact h.ctl (ctl_moves hs)
  | rootCrash rc =>
    simp only [Demand.step] at hs
    split at hs
    · rename_i hx
      cases hs
      refine h.rootExit _ (fun he => ?_) fun rc' hr => ?_
      · cases he
        exact absurd rfl hx.2
      · have he := h.rootRep rc' hr
        rw [hx.1] at he
        cases he
    · cases hs
  | connCrash rc =>
    simp only [Demand.step] at hs
    split at hs
    · rename_i hx
      cases hs
      refine h.connExit _ (fun he => ?_) fun rc' hr => ?_
      · cases he
        exact absurd rfl hx.2.2
      · have he := h.connRep rc' hr
        rw [hx.2.1] at he
        cases he
    · cases hs
  | execute =>
    simp only [Demand.step] at hs
    split at hs
    · rename_i g hg
      split at hs
      · cases hs
        refine { h with reply := ?_ }
        rintro v ⟨⟩
        exact ⟨g, hg, rfl⟩
      · cases hs
    · cases hs
  | drop =>
    simp only [Demand.step] at hs
    split at hs
    · cases hs
      exact { h with guest := nofun, parted := fun hl => ⟨(h.parted hl).1, rfl⟩ }
    · cases hs

theorem Inv.start (cfg : Config) (t : Nat) : Inv cfg (start t) where
  placed := ⟨rfl, nofun, nofun⟩
  filed := ⟨nofun, nofun, nofun, nofun, nofun, nofun⟩
  sent := ⟨nofun, nofun, nofun, nofun⟩
  enrolled := ⟨rfl, rfl, nofun, nofun, rfl, fun h => absurd rfl h, nofun⟩
  arranged := ⟨nofun, nofun, by simp [Demand.start, CtlPc.stage], by simp [Demand.start, CtlPc.stage],
    by simp [Demand.start, CtlPc.stage]⟩
  beats := Deadman.Beats.nil _
  watched := ⟨Nat.zero_le _, nofun, nofun, nofun⟩
  clock := Nat.le_add_right _ _
  launched := fun h => absurd rfl h
  ready := nofun
  guest := nofun
  idsStart := nofun
  idsBaseline := nofun
  admitted := nofun
  reply := nofun
  heard := nofun
  parted := nofun
  lively := Iff.rfl
  ended := nofun
  rootRep := nofun
  connRep := nofun

theorem inv_reach {t : Nat} (h : Reach (step cfg) (start t) s) : Inv cfg s :=
  h.inv (fun _ act _ hi hs => hi.step act hs) (Inv.start cfg t)

/-! ## the time stamps -/

theorem wall_le {t u : Nat} (h : t ≤ u) : wall t ≤ wall u := Nat.div_le_div_right h

/-- the times that the parties put into their files -/
structure Timed (s : World) : Prop where
  localWall : ∀ f, s.root.files.localPhase = some f → f.wall ≤ wall s.now
  lived : 0 < s.root.firstLiveness → 3 ≤ s.root.pc.stage ∧
    ∀ f, s.root.files.localPhase = some f → f.wall ≤ s.root.firstLiveness
  demand : ∀ d, s.ctl.demand = some d → d ≤ wall s.now
  popen : ∀ p, s.ctl.popenWall = some p → p ≤ wall s.now ∧ ∃ d, s.ctl.demand = some d ∧ d ≤ p
  spawned : ∀ w, s.conn.files.spawned = some w →
    w ≤ wall s.now ∧ ∃ p, s.ctl.popenWall = some p ∧ p ≤ w
  admission : ∀ f, s.root.files.admission = some f →
    f.wall ≤ wall s.now ∧ ∃ w, s.conn.files.spawned = some w ∧ w ≤ f.wall

theorem Timed.tick (h : Timed s) (d : Nat) : Timed { s with now := s.now + d } := by
  have hle : wall s.now ≤ wall (s.now + d) := wall_le (Nat.le_add_right _ _)
  constructor
  · exact fun f hf => Nat.le_trans (h.localWall f hf) hle
  · exact h.lived
  · exact fun t ht => Nat.le_trans (h.demand t ht) hle
  · exact fun p hp => ⟨Nat.le_trans (h.popen p hp).1 hle, (h.popen p hp).2⟩
  · exact fun w hw => ⟨Nat.le_trans (h.spawned w hw).1 hle, (h.spawned w hw).2⟩
  · exact fun f hf => ⟨Nat.le_trans (h.admission f hf).1 hle, (h.admission f hf).2⟩

theorem Timed.root {r' : Root} (h : Timed s) (hi : Inv cfg s)
    (hm : RootMoves cfg s.rootView s.root r') : Timed { s with root := r' } := by
  obtain ⟨hlocal, hadm⟩ := hm.stamps
  refine ⟨?_, ?_, h.demand, h.popen, h.spawned, ?_⟩
  · intro f hf
    rcases hlocal f hf with hf | ⟨_, hw⟩
    · exact h.localWall f hf
    · exact Nat.le_of_eq hw
  · intro hpos
    rcases hm.first with hsame | ⟨hpc, hphase, hw⟩
    · have hpos' : 0 < s.root.firstLiveness := hsame ▸ hpos
      obtain ⟨hs, hle⟩ := h.lived hpos'
      refine ⟨Nat.le_trans hs hm.stage, ?_⟩
      intro f hf
      rcases hlocal f hf with hf | ⟨hpc, _⟩
      · exact hsame ▸ hle f hf
      · rw [hpc] at hs
        exact absurd hs (by decide)
    · refine ⟨Nat.le_trans (by rw [hpc]; decide) hm.stage, ?_⟩
      intro f hf
      rw [hphase] at hf
      exact hw ▸ h.localWall f hf
  · intro f hf
    rcases hadm f hf with hf | ⟨hpc, hw⟩
    · exact h.admission f hf
    · have ha := hi.placed.late (by rw [hpc]; decide) (by rw [hpc]; decide)
      have hsome : s.conn.files.spawned.isSome = true := by
        have hid := hi.enrolled.id
        rw [hi.admitted ha] at hid
        have hstage := of_decide_eq_true hid.symm
        rw [hi.enrolled.spawned]
        exact decide_eq_true (by omega)
      obtain ⟨w, hspawn⟩ := Option.isSome_iff_exists.mp hsome
      exact ⟨Nat.le_of_eq hw, w, hspawn, hw ▸ (h.spawned w hspawn).1⟩

theorem Timed.conn {c' : Connector} {g : Option UInt32} (h : Timed s) (hi : Inv cfg s)
    (hm : ConnMoves cfg (s.connView cfg) s.conn c' g) :
    Timed { s with conn := c', guest := g } := by
  refine ⟨h.localWall, h.lived, h.demand, h.popen, ?_, ?_⟩
  · intro w hw
    rcases hm.spawn hw with hw | hw
    · exact h.spawned w hw
    · obtain ⟨hs, harm, hd⟩ := hi.launched hm.present
      have hsome : s.ctl.popenWall.isSome = true := by
        rw [hi.arranged.popenWall]
        exact decide_eq_true ⟨harm, hd, by omega⟩
      obtain ⟨p, hp⟩ := Option.isSome_iff_exists.mp hsome
      exact ⟨Nat.le_of_eq hw, p, hp, hw ▸ (h.popen p hp).1⟩
  · intro f hf
    obtain ⟨hle, w, hw, hwle⟩ := h.admission f hf
    exact ⟨hle, w, hm.spawned hi.enrolled hw, hwle⟩

/-- a move of the controller that leaves its times alone -/
theorem Timed.same (h : Timed s) (hn : s'.now = s.now)
    (hlocal : s'.root.files.localPhase = s.root.files.localPhase)
    (hfirst : s'.root.firstLiveness = s.root.firstLiveness) (hstage : s'.root.pc = s.root.pc)
    (hadm : s'.root.files.admission = s.root.files.admission)
    (hspawn : s'.conn.files.spawned = s.conn.files.spawned)
    (hdemand : s'.ctl.demand = s.ctl.demand) (hpopen : s'.ctl.popenWall = s.ctl.popenWall) :
    Timed s' := by
  obtain ⟨h1, h2, h3, h4, h5, h6⟩ := h
  constructor
  · rwa [hlocal, hn]
  · rwa [hfirst, hstage, hlocal]
  · rwa [hdemand, hn]
  · rwa [hpopen, hdemand, hn]
  · rwa [hspawn, hpopen, hn]
  · rwa [hadm, hspawn, hn]

theorem Timed.ctl (h : Timed s) (hi : Inv cfg s) (hm : CtlMoves cfg s s') : Timed s' := by
  have harr := hi.arranged
  cases hm with
  | demands hpc harm =>
    have hnopopen : s.ctl.popenWall = none := by
      refine Option.not_isSome_iff_eq_none.mp ?_
      rw [harr.popenWall, hpc]
      simp [CtlPc.stage]
    refine ⟨h.localWall, h.lived, ?_, ?_, h.spawned, h.admission⟩
    · rintro d ⟨⟩
      exact Nat.le_refl _
    · intro p hp
      rw [show s.ctl.popenWall = some p from hp] at hnopopen
      cases hnopopen
  | stamps hpc =>
    have hlaunch := harr.launch (by rw [hpc]; decide) (by rw [hpc]; decide)
    obtain ⟨d, hd⟩ := Option.isSome_iff_exists.mp (show s.ctl.demand.isSome = true by
      rw [harr.demand, hpc]
      exact decide_eq_true ⟨hlaunch.1, Nat.le_refl 4⟩)
    have hnospawn : s.conn.files.spawned = none := by
      cases hw : s.conn.files.spawned with
      | none => rfl
      | some w =>
        obtain ⟨_, p, hp, _⟩ := h.spawned w hw
        have hno := harr.popenWall
        rw [hp, hpc] at hno
        simp [CtlPc.stage] at hno
    refine ⟨h.localWall, h.lived, h.demand, ?_, ?_, h.admission⟩
    · rintro p ⟨⟩
      exact ⟨Nat.le_refl _, d, hd, h.demand d hd⟩
    · intro w hw
      rw [show s.conn.files.spawned = some w from hw] at hnospawn
      cases hnospawn
  | dwells _ hpc | wakes hpc | readies hpc | finishes hpc | popens hpc | looks hpc | reaps hpc
  | kills hpc | reapsRoot hpc | killsRoot hpc | collects _ hpc =>
    exact h.same rfl rfl rfl rfl rfl rfl rfl rfl

theorem Timed.step (h : Timed s) (hi : Inv cfg s) (act : Act) (hs : step cfg s act = some s') :
    Timed s' := by
  cases act with
  | tick d =>
    cases hs
    exact h.tick d
  | root a =>
    simp only [Demand.step] at hs
    split at hs
    · obtain ⟨r', hr, rfl⟩ := Option.map_eq_some_iff.mp hs
      exact h.root hi (root_moves hr)
    · cases hs
  | conn a =>
    simp only [Demand.step] at hs
    split at hs
    · obtain ⟨⟨c', g⟩, hc, rfl⟩ := Option.map_eq_some_iff.mp hs
      exact h.conn hi (conn_moves hc)
    · cases hs
  | ctl a => exact h.ctl hi (ctl_moves hs)
  | rootCrash rc | connCrash rc | drop =>
    simp only [Demand.step] at hs
    split at hs
    · cases hs
      exact h.same rfl rfl rfl rfl rfl rfl rfl rfl
    · cases hs
  | execute =>
    simp only [Demand.step] at hs
    split at hs
    · split at hs
      · cases hs
        exact h.same rfl rfl rfl rfl rfl rfl rfl rfl
      · cases hs
    · cases hs

theorem timed_start (t : Nat) : Timed (start t) :=
  ⟨nofun, nofun, nofun, nofun, nofun, nofun⟩

theorem timed_reach {t : Nat} (h : Reach (step cfg) (start t) s) : Timed s :=
  (h.inv (P := fun s => Inv cfg s ∧ Timed s)
    (fun _ act _ hi hs => ⟨hi.1.step act hs, hi.2.step hi.1 act hs⟩)
    ⟨Inv.start cfg t, timed_start t⟩).2

/-! ## what precedes what -/

/-- **The order of an admission.**  Whatever the order of the steps was, and whoever crashed or was
killed: the connector exists only after the demand event and after the baseline of a root that was alone;
who is admitted is that connector, which the baseline does not have; an action is sent only after the
admission and only to it, and its result comes from it; the connector hears of the completion only once
the outcome is on the disk; and an observed leave is one. -/
theorem demand_order {t : Nat} (h : Reach (step cfg) (start t) s) :
    (s.conn.pc ≠ .absent → cfg.arm = .demand ∧ ∃ d p f, s.ctl.demand = some d ∧
      s.ctl.popenWall = some p ∧ d ≤ p ∧ s.root.files.localPhase = some f ∧ f.ids = [here]) ∧
    (∀ f, s.root.files.admission = some f → f.baseline = [here] ∧ s.conn.id = some f.newId ∧
      f.newId ≠ here ∧ ∃ w, s.conn.files.spawned = some w ∧ w ≤ f.wall) ∧
    (∀ g, s.root.parcel = some g → ∃ f, s.root.files.admission = some f ∧ g = f.newId) ∧
    (∀ d, s.root.files.served = some d → d.status = .returned →
      d.matched = true ∧ d.provedRemote = true ∧ s.conn.id = some d.executedOn) ∧
    (s.conn.reason = .rootCompletionSignal → s.root.files.served.isSome = true) ∧
    ∀ f, s.root.files.leave = some f → f.observed = true → s.guest = none := by
  have hi := inv_reach h
  have ht := timed_reach h
  obtain ⟨-, hlocal, hadm, hserved, hdone, -, -, -⟩ := hi.placed.files
  have hforeign : ∀ g, s.conn.id = some g → g ≠ here := by
    rintro g hg rfl
    exact hi.enrolled.foreign hg
  refine ⟨?_, ?_, ?_, ?_, ?_, ?_⟩
  · intro hpc
    obtain ⟨hs, harm, hd⟩ := hi.launched hpc
    have hready := hi.ready hd
    obtain ⟨p, hp⟩ := Option.isSome_iff_exists.mp (show s.ctl.popenWall.isSome = true by
      rw [hi.arranged.popenWall]
      exact decide_eq_true ⟨harm, hd, by omega⟩)
    obtain ⟨f, hf⟩ := Option.isSome_iff_exists.mp (hlocal.trans (decide_eq_true hready))
    obtain ⟨_, d, hdem, hle⟩ := ht.popen p hp
    refine ⟨harm, d, p, f, hdem, hp, hle, hf, ?_⟩
    rw [(hi.filed.localPhase f hf).1]
    exact hi.idsBaseline (by omega)
  · intro f hf
    rw [hf] at hadm
    obtain ⟨ha, hs⟩ := Bool.and_eq_true_iff.mp hadm.symm
    have hs := of_decide_eq_true hs
    obtain ⟨hbase, hid, -, -⟩ := hi.filed.admission f hf
    have hconn : s.conn.id = some f.newId := by
      rw [hid]
      exact hi.admitted ha
    refine ⟨?_, hconn, hforeign _ hconn, (ht.admission f hf).2⟩
    rw [hbase]
    exact hi.idsBaseline (by omega)
  · intro g hg
    obtain ⟨ha, hid, hs⟩ := hi.sent.parcel g hg
    obtain ⟨f, hf⟩ := Option.isSome_iff_exists.mp (show s.root.files.admission.isSome = true by
      rw [hadm, ha]
      exact decide_eq_true (by omega))
    exact ⟨f, hf, hid.trans (hi.filed.admission f hf).2.1.symm⟩
  · intro d hd hret
    have hdisp := hi.filed.served d hd
    rw [hd] at hserved
    obtain ⟨ha, -⟩ := Bool.and_eq_true_iff.mp hserved.symm
    rw [hdisp] at hret ⊢
    obtain ⟨hm, hex, hp⟩ := hi.sent.returned hret
    have hconn := hi.admitted ha
    exact ⟨hm, hp.mpr (hforeign _ hconn), by rw [hex]; exact hconn⟩
  · intro hr
    have hd := hi.heard hr
    rw [hdone] at hd
    obtain ⟨ha, hs⟩ := Bool.and_eq_true_iff.mp hd
    have hs := of_decide_eq_true hs
    rw [hserved, ha]
    exact decide_eq_true (by omega)
  · intro f hf hobs
    exact (hi.parted ((hi.filed.leave f hf).symm.trans hobs)).2

/-- a clock of which the stamps hide nothing -/
def exactMtime : Mtime where
  of := id
  grain := 1
  mono := monotone_id
  lt := Nat.lt_succ_self

/-- one local call, one slice of a second, the timeouts of the runner -/
def quick (arm : RootArm) : Config where
  arm := arm
  x := 7
  localK := 1
  waitTimeout := 60000 * msec
  leaveTimeout := 20000 * msec
  dispatchBound := 15
  tick := 200 * msec
  serveTimeout := 30000 * msec
  dwell := msec
  mtime := exactMtime

def roots (n : Nat) : List Act := List.replicate n (.root {})

def conns (n : Nat) : List Act := List.replicate n (.conn {})

def ctls (n : Nat) : List Act := List.replicate n (.ctl {})

/-- the root looks once around, and the connector is launched -/
def launchMoves : List Act :=
  roots 5 ++ ctls 2 ++ roots 4 ++ [.tick msec] ++ ctls 4 ++ [.tick msec] ++ conns 3

/-- the connector is admitted, serves the action, and leaves at the completion -/
def serveMoves : List Act :=
  launchMoves ++ [.tick (200 * msec)] ++ roots 8 ++ [.execute, .root { wait := .ready }] ++ roots 2 ++
    conns 7 ++ ctls 2 ++ roots 6 ++ ctls 2

theorem serveMoves_end : ∃ s, run (step (quick .demand)) (start 0) serveMoves = some s ∧
    s.conn.reason = .rootCompletionSignal := ⟨_, rfl, rfl⟩

theorem demand_order_serve : ∃ s, Reach (step (quick .demand)) (start 0) s ∧
    s.root.files.served.isSome = true := by
  obtain ⟨s, hrun, hr⟩ := serveMoves_end
  have h : Reach (step (quick .demand)) (start 0) s := ⟨serveMoves, hrun⟩
  exact ⟨s, h, (demand_order h).2.2.2.2.1 hr⟩

/-- **What the deadman is right about.**  Where the connector has left because `root.alive` was silent,
more than the timeout has passed since its start, and between the start and its last look at the file the
root wrote nothing but what the stamp of a write before the start hides. -/
theorem deadman_silent {t : Nat} (h : Reach (step cfg) (start t) s)
    (hr : s.conn.reason = .serveTimeoutExpired) :
    s.conn.deadman.start + cfg.serveTimeout < s.now ∧
      ∀ w ∈ s.root.files.beats, s.conn.deadman.start ≤ w → w < s.conn.deadman.readAt →
        ∃ w₀, w₀ ≤ s.conn.deadman.start ∧ s.conn.deadman.last = some (cfg.mtime.of w₀) ∧
          w < cfg.mtime.of w₀ + cfg.mtime.grain := by
  obtain ⟨hw, hlt⟩ := (inv_reach h).watched.expired hr
  exact ⟨hlt, fun w hmem hs hread => hw.silent hmem hs hread⟩

/-- the root crashes, and half a minute later the connector takes it for dead -/
def silentMoves : List Act :=
  launchMoves ++ [.rootCrash 1] ++ conns 5 ++ [.tick (30001 * msec)] ++ conns 4

theorem silentMoves_end : ∃ s, run (step (quick .demand)) (start 0) silentMoves = some s ∧
    s.conn.reason = .serveTimeoutExpired := ⟨_, rfl, rfl⟩

theorem deadman_silent_crash : ∃ s, Reach (step (quick .demand)) (start 0) s ∧
    s.conn.deadman.start + (quick .demand).serveTimeout < s.now := by
  obtain ⟨s, hrun, hr⟩ := silentMoves_end
  have h : Reach (step (quick .demand)) (start 0) s := ⟨silentMoves, hrun⟩
  exact ⟨s, h, (deadman_silent h hr).1⟩

end Demand
end RayX
