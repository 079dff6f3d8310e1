import RayX.Supervision.Recovery

/-!
# The root of a recovery

What the root has written and checked at each of its places.

* `RootPc.stage`             how far it has come;
* `Root.shown`               its markers, from its place and its local variables;
* `Root.begun`, `Root.Checked`   what the start and the checks that it has passed have found;
* `RootMoves`, `root_moves`   what a step of it can do;
* `Root.shown_move`, `Root.begun_move`, `Root.Checked.move`   they are kept;
* `RootMoves.grows`, `RootMoves.learns`   markers stay, and roles are those of the file.
-/

namespace RayX
namespace Recovery
open Sys

variable {roles : Option Roles} {r r' : Root} {a : Answer}

/-! ## the stages of the root -/

/-- how far the root has come; a root that gives up with `rc` is between the stages of the check that
has failed and of the next part -/
@[simp] def RootPc.stage : RootPc → Nat
  | .boot => 0
  | .join => 10
  | .roles => 31
  | .discover => 41
  | .joined => 51
  | .work => 61
  | .fence | .fenceWrite => 71
  | .force => 81
  | .forceWrite => 82
  | .effect => 83
  | .ready => 84
  | .await => 86
  | .rolesC => 91
  | .replace => 101
  | .finish rc | .stop rc => if rc = 0 then 120 else 10 * rc

@[simp] def RootPc.noted : RootPc → Option Nat
  | .stop rc => some rc
  | _ => none

/-- the files that a root at its place has written -/
def Root.shown (r : Root) (started : Option Bool) : RootFiles where
  started := started
  joined := if 60 ≤ r.pc.stage then some r.joinedFile else none
  work := if 70 ≤ r.pc.stage then some r.workFile else none
  fencing := if 80 ≤ r.pc.stage then some r.fencingFile else none
  disconnect := if 83 ≤ r.pc.stage then some r.disconnectFile else none
  effect := if 84 ≤ r.pc.stage then some r.effectFile else none
  ready := decide (86 ≤ r.pc.stage)
  result := if 120 ≤ r.pc.stage then some r.resultFile else none
  note := r.pc.noted

/-- a root past its start has said so -/
def Root.begun (r : Root) : Prop := r.pc ≠ .boot → r.files.started = some true

/-- what the checks that are passed have found -/
structure Root.Checked (r : Root) : Prop where
  connecting : 61 ≤ r.pc.stage → r.bConnecting = true
  work : 71 ≤ r.pc.stage → r.probeA.ok = true ∧ r.probeB.ok = true
  fenced : 81 ≤ r.pc.stage → r.fenced = true
  peerB : 51 ≤ r.pc.stage → r.peerB.locality = r.roles.b
  named : 101 ≤ r.pc.stage → r.roles.c.isSome = true
  peerC : 120 ≤ r.pc.stage → r.roles.c = some r.peerC.locality
  targets : r.targets = if 82 ≤ r.pc.stage then [r.peerB.locality] else []
  attempt : r.last.any FenceAttempt.rejected = r.fenced
  code : ∀ rc, r.pc = .finish rc ∨ r.pc = .stop rc → rc = 0 ∨ 3 ≤ rc ∧ rc ≤ 11

/-- the roles file keeps the entries that the root has read -/
def Root.agrees (r : Root) (roles : Option Roles) : Prop :=
  41 ≤ r.pc.stage → ∀ ρ, roles = some ρ → ρ.a = r.roles.a ∧ ρ.b = r.roles.b

/-- what the root can do; a loop can take another turn, and a search or a bounded wait can fail -/
inductive RootMoves (roles : Option Roles) (r : Root) : Root → Prop
  | starts (hpc : r.pc = .boot) :
      RootMoves roles r { r with files := { r.files with started := some true }, pc := .join }
  | aborts (hpc : r.pc = .boot) :
      RootMoves roles r { r with
        files := { r.files with started := some false }, exit := some (.self 2) }
  | waits : RootMoves roles r r
  | gives (rc : Nat) (hpc : r.pc = .join ∧ rc = 3 ∨ r.pc = .roles ∧ rc = 4 ∨ r.pc = .discover ∧ rc = 5 ∨
      r.pc = .await ∧ rc = 9 ∨ r.pc = .rolesC ∧ rc = 10 ∨ r.pc = .replace ∧ rc = 11) :
      RootMoves roles r { r with pc := .finish rc }
  | gathers (hpc : r.pc = .join) : RootMoves roles r { r with pc := .roles }
  | reads (ρ : Roles) (hpc : r.pc = .roles) (hρ : roles = some ρ) :
      RootMoves roles r { r with roles := ρ, pc := .discover }
  | finds (p : Peer) (hpc : r.pc = .discover) (hp : p.locality = r.roles.b) :
      RootMoves roles r { r with peerB := p, pc := .joined }
  | joins (b : Bool) (hpc : r.pc = .joined) :
      RootMoves roles r { r with
        bConnecting := b
        files := { r.files with joined := some ⟨b, r.roles.b⟩ }
        pc := if b then .work else .finish 6 }
  | works (p q : PlainProbe) (hpc : r.pc = .work) :
      RootMoves roles r { r with
        probeA := p
        probeB := q
        files := { r.files with work := some ⟨p.ok, q.ok, appFailedPublishCount⟩ }
        pc := if p.ok && q.ok then .fence else .finish 7 }
  | tires (hpc : r.pc = .fence) : RootMoves roles r { r with pc := .fenceWrite }
  | looks (a : FenceAttempt) (hpc : r.pc = .fence) :
      RootMoves roles r { r with
        last := some a
        fenced := a.rejected
        pc := if a.rejected then .fenceWrite else .fence }
  | fences (hpc : r.pc = .fenceWrite) :
      RootMoves roles r { r with
        files := { r.files with fencing := some r.fencingFile }
        pc := if r.fenced then .force else .finish 8 }
  | forces (rc : Int) (hpc : r.pc = .force) :
      RootMoves roles r { r with
        targets := r.peerB.locality :: r.targets, fdRc := rc, pc := .forceWrite }
  | forced (hpc : r.pc = .forceWrite) :
      RootMoves roles r { r with
        files := { r.files with disconnect := some r.disconnectFile }, pc := .effect }
  | effects (u : Bool) (n : Nat) (p : PlainProbe) (hpc : r.pc = .effect) :
      RootMoves roles r { r with
        unresolved := u
        membersAfter := n
        post := p
        files := { r.files with effect := some ⟨r.fdRc == 0, u, n == 2, !p.ok⟩ }
        pc := .ready }
  | readies (hpc : r.pc = .ready) :
      RootMoves roles r { r with files := { r.files with ready := true }, pc := .await }
  | returns (hpc : r.pc = .await) : RootMoves roles r { r with pc := .rolesC }
  | rereads (ρ : Roles) (hpc : r.pc = .rolesC) (hρ : roles = some ρ) :
      RootMoves roles r { r with roles := ρ, pc := if ρ.c.isSome then .replace else .rolesC }
  | replaces (c : Peer) (p q : PlainProbe) (k : Bool) (f : ResultFile) (hpc : r.pc = .replace)
      (hc : r.roles.c = some c.locality)
      (hf : f = { r with peerC := c, probeC := p, stillRejected := k, stale := q }.resultFile) :
      RootMoves roles r { r with
        peerC := c
        probeC := p
        stillRejected := k
        stale := q
        files := { r.files with result := some f }
        pc := .finish 0 }
  | notes (rc : Nat) (hpc : r.pc = .finish rc) :
      RootMoves roles r { r with files := { r.files with note := some rc }, pc := .stop rc }
  | stops (rc : Nat) (code : Int) (hpc : r.pc = .stop rc) (hcode : code = rc ∨ rc = 0 ∧ code = 6) :
      RootMoves roles r { r with exit := some (.self code) }

theorem root_moves (h : rootGo roles r a = some r') : RootMoves roles r r' := by
  cases hpc : r.pc with
  | boot =>
    simp only [rootGo, hpc] at h
    split at h <;> cases h
    · exact .starts hpc
    · rw [← hpc]
      exact .aborts hpc
  | join =>
    simp only [rootGo, hpc] at h
    split at h
    · split at h <;> cases h
      · exact .gathers hpc
      · exact .gives 3 (by simp [hpc])
    · cases h
      exact .waits
  | roles =>
    simp only [rootGo, hpc] at h
    split at h
    · cases h
      exact .gives 4 (by simp [hpc])
    · split at h <;> cases h
      · exact .reads _ hpc rfl
      · exact .waits
  | discover =>
    simp only [rootGo, hpc] at h
    split at h
    · rename_i hb
      cases h
      exact .finds _ hpc (findPeer_locality hb)
    · split at h <;> cases h
      · exact .gives 5 (by simp [hpc])
      · exact .waits
  | joined =>
    simp only [rootGo, hpc] at h
    cases h
    exact .joins a.ok hpc
  | work =>
    simp only [rootGo, hpc] at h
    cases h
    exact .works _ _ hpc
  | fence =>
    simp only [rootGo, hpc] at h
    split at h <;> cases h
    · exact .tires hpc
    · exact .looks a.fence hpc
  | fenceWrite =>
    simp only [rootGo, hpc] at h
    cases h
    exact .fences hpc
  | force =>
    simp only [rootGo, hpc] at h
    cases h
    exact .forces a.rc hpc
  | forceWrite =>
    simp only [rootGo, hpc] at h
    cases h
    exact .forced hpc
  | effect =>
    simp only [rootGo, hpc] at h
    cases h
    exact .effects _ _ _ hpc
  | ready =>
    simp only [rootGo, hpc] at h
    cases h
    exact .readies hpc
  | await =>
    simp only [rootGo, hpc] at h
    split at h
    · split at h <;> cases h
      · exact .returns hpc
      · exact .gives 9 (by simp [hpc])
    · cases h
      exact .waits
  | rolesC =>
    simp only [rootGo, hpc] at h
    split at h
    · cases h
      exact .gives 10 (by simp [hpc])
    · split at h
      · cases h
        exact .rereads _ hpc rfl
      · cases h
        exact .waits
  | replace =>
    simp only [rootGo, hpc] at h
    split at h
    · rename_i c hfind
      cases h
      obtain ⟨l, hl, hfound⟩ := Option.bind_eq_some_iff.mp hfind
      exact .replaces c _ _ _ _ hpc (hl.trans (by rw [findPeer_locality hfound])) rfl
    · cases h
      exact .gives 11 (by simp [hpc])
  | finish rc =>
    simp only [rootGo, hpc] at h
    cases h
    exact .notes rc hpc
  | stop rc =>
    simp only [rootGo, hpc] at h
    cases h
    rw [← hpc]
    refine .stops rc _ hpc ?_
    split
    · rename_i hrc
      exact .inr ⟨hrc.1, rfl⟩
    · exact .inl rfl

theorem Root.shown_move (h : ∃ st, r.files = r.shown st) (hv : r.agrees roles)
    (hm : RootMoves roles r r') : ∃ st, r'.files = r'.shown st := by
  obtain ⟨st, h⟩ := h
  cases hm with
  | starts hpc => exact ⟨some true, by simp [h, Root.shown, hpc]⟩
  | aborts hpc => exact ⟨some false, by simp [h, Root.shown, hpc]⟩
  | waits => exact ⟨st, h⟩
  | gives rc hpc =>
    refine ⟨st, ?_⟩
    rcases hpc with ⟨hpc, rfl⟩ | ⟨hpc, rfl⟩ | ⟨hpc, rfl⟩ | ⟨hpc, rfl⟩ | ⟨hpc, rfl⟩ | ⟨hpc, rfl⟩ <;>
      simp [h, Root.shown, hpc]
  | gathers hpc | reads ρ hpc | finds p hpc | tires hpc | forces rc hpc | forced hpc | effects u n p hpc
  | readies hpc | returns hpc => exact ⟨st, by simp [h, Root.shown, hpc]⟩
  | joins b hpc => exact ⟨st, by cases b <;> simp [h, Root.shown, hpc]⟩
  | works p q hpc =>
    refine ⟨st, ?_⟩
    dsimp only
    split <;> simp [h, Root.shown, hpc]
  | looks b hpc =>
    refine ⟨st, ?_⟩
    dsimp only
    split <;> simp [h, Root.shown, hpc]
  | fences hpc =>
    refine ⟨st, ?_⟩
    dsimp only
    split <;> simp [h, Root.shown, hpc]
  | rereads ρ hpc hρ =>
    have hb := (hv (by simp [hpc]) ρ hρ).2
    refine ⟨st, ?_⟩
    dsimp only
    split <;> simp [h, Root.shown, hpc, hb]
  | replaces c p q k f hpc hc hf =>
    exact ⟨st, by simp [h, Root.shown, hpc, hf, Root.resultFile, Root.identified]⟩
  | notes rc hpc =>
    refine ⟨st, ?_⟩
    rw [h]
    simp only [Root.shown, hpc]
    rfl
  | stops rc code hpc =>
    exact ⟨st, h⟩

theorem Root.begun_move (hb : r.begun) (hm : RootMoves roles r r') : r'.begun := by
  cases hm with
  | starts hpc => exact fun _ => rfl
  | aborts hpc => exact fun hne => absurd hpc hne
  | waits => exact hb
  | gives rc hpc =>
    have hne : r.pc ≠ .boot := by
      rcases hpc with ⟨hpc, -⟩ | ⟨hpc, -⟩ | ⟨hpc, -⟩ | ⟨hpc, -⟩ | ⟨hpc, -⟩ | ⟨hpc, -⟩ <;> simp [hpc]
    exact fun _ => hb hne
  | gathers hpc | reads _ hpc | finds _ hpc | joins _ hpc | works _ _ hpc | tires hpc | looks _ hpc
  | fences hpc | forces _ hpc | forced hpc | effects _ _ _ hpc | readies hpc | returns hpc
  | rereads _ hpc | replaces _ _ _ _ _ hpc | notes _ hpc | stops _ _ hpc =>
    exact fun _ => hb (by simp [hpc])

theorem Root.Checked.move (hc : r.Checked) (hv : r.agrees roles) (hm : RootMoves roles r r') :
    r'.Checked := by
  obtain ⟨h1, h2, h3, h4, h5, h6, h7, h8, h9⟩ := id hc
  cases hm with
  | starts hpc | gathers hpc | reads ρ hpc | finds p hpc hp =>
    simp [hpc] at h7
    constructor <;> simp [*]
  | aborts hpc | stops rc code hpc => exact ⟨h1, h2, h3, h4, h5, h6, h7, h8, h9⟩
  | waits => exact hc
  | gives rc hpc =>
    rcases hpc with ⟨hpc, rfl⟩ | ⟨hpc, rfl⟩ | ⟨hpc, rfl⟩ | ⟨hpc, rfl⟩ | ⟨hpc, rfl⟩ | ⟨hpc, rfl⟩ <;>
      simp [hpc] at h1 h2 h3 h4 h5 h7 <;> constructor <;> simp [*]
  | joins b hpc =>
    simp [hpc] at h4 h7
    cases b <;> constructor <;> simp [*]
  | works p q hpc =>
    simp [hpc] at h1 h4 h7
    cases hp : p.ok <;> cases hq : q.ok <;> constructor <;> simp [*]
  | tires hpc =>
    simp [hpc] at h1 h2 h4 h7
    constructor <;> simp [*]
  | looks b hpc =>
    simp [hpc] at h1 h2 h4 h7
    cases hb : b.rejected <;> constructor <;> simp [*]
  | fences hpc =>
    simp [hpc] at h1 h2 h4 h7
    cases hf : r.fenced <;> constructor <;> simp [*]
  | forces rc hpc | forced hpc | effects u n p hpc | readies hpc | returns hpc =>
    simp [hpc] at h1 h2 h3 h4 h7
    constructor <;> simp [*]
  | rereads ρ hpc hρ =>
    simp [hpc] at h1 h2 h3 h4 h7
    have hb := (hv (by simp [hpc]) ρ hρ).2
    cases hsome : ρ.c.isSome <;> constructor <;> simp [*]
  | replaces c p q k f hpc hc =>
    simp [hpc] at h1 h2 h3 h4 h5 h7
    constructor <;> simp [*]
  | notes rc hpc =>
    rw [hpc] at h1 h2 h3 h4 h5 h6 h7
    exact ⟨h1, h2, h3, h4, h5, h6, h7, h8, by simpa [hpc] using h9⟩

/-- a marker that is there stays -/
structure RootFiles.Grows (x y : RootFiles) : Prop where
  joined : ∀ f, x.joined = some f → y.joined = some f
  work : ∀ f, x.work = some f → y.work = some f
  fencing : ∀ f, x.fencing = some f → y.fencing = some f
  disconnect : ∀ f, x.disconnect = some f → y.disconnect = some f
  effect : ∀ f, x.effect = some f → y.effect = some f
  ready : x.ready = true → y.ready = true
  result : ∀ f, x.result = some f → y.result = some f

theorem RootFiles.Grows.refl (x : RootFiles) : x.Grows x :=
  ⟨fun _ h => h, fun _ h => h, fun _ h => h, fun _ h => h, fun _ h => h, id, fun _ h => h⟩

theorem RootMoves.grows (hm : RootMoves roles r r') (h : ∃ st, r.files = r.shown st) :
    r.files.Grows r'.files := by
  obtain ⟨st, h⟩ := h
  cases hm with
  | starts | aborts => constructor <;> simp
  | joins b hpc | works p q hpc | fences hpc | forced hpc | effects u n p hpc | readies hpc | notes rc hpc =>
    constructor <;> simp [h, Root.shown, hpc]
  | replaces c p q k f hpc => constructor <;> simp [h, Root.shown, hpc]
  | _ => exact .refl _

/-- the root knows the roles it knew before, or those of the file -/
theorem RootMoves.learns (hm : RootMoves roles r r') :
    (r'.roles = r.roles ∧ (41 ≤ r'.pc.stage → 41 ≤ r.pc.stage) ∧
      (101 ≤ r'.pc.stage → 101 ≤ r.pc.stage)) ∨
    roles = some r'.roles ∧ (101 ≤ r'.pc.stage → r'.roles.c.isSome = true) := by
  cases hm with
  | reads ρ hpc hρ => exact .inr ⟨hρ, by simp⟩
  | rereads ρ hpc hρ =>
    right
    cases ρ.c.isSome <;> simp [hρ]
  | aborts | waits | stops => exact .inl ⟨rfl, id, id⟩
  | gives rc hpc =>
    left
    rcases hpc with ⟨hpc, rfl⟩ | ⟨hpc, rfl⟩ | ⟨hpc, rfl⟩ | ⟨hpc, rfl⟩ | ⟨hpc, rfl⟩ | ⟨hpc, rfl⟩ <;> simp [hpc]
  | notes rc hpc =>
    left
    rw [hpc]
    exact ⟨rfl, id, id⟩
  | joins b hpc =>
    left
    cases b <;> simp [hpc]
  | works p q hpc =>
    left
    cases p.ok <;> cases q.ok <;> simp [hpc]
  | looks b hpc =>
    left
    cases b.rejected <;> simp [hpc]
  | fences hpc =>
    left
    cases r.fenced <;> simp [hpc]
  | starts hpc | gathers hpc | finds p hpc | tires hpc | forces rc hpc | forced hpc | effects u n p hpc
  | readies hpc | returns hpc | replaces c p q k f hpc =>
    left
    simp [hpc]

end Recovery
end RayX
