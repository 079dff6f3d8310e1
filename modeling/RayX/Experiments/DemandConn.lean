import RayX.Experiments.Demand

/-!
# The connector of a demand-triggered admission

* `ConnMoves`, `conn_moves`   what a step of the connector can do;
* `Enrolled`                  the files of the connector, its locality and its end, at a place of its program;
* `Watched`                   what its deadman knows of the beats of the root.
-/

namespace RayX
namespace Demand
open Sys

variable {cfg : Config} {v : ConnView} {c c' : Connector} {a : Answer} {g : Option UInt32}

/-! ## the moves -/

/-- the step of the connector from `c`, with the member besides the root after it -/
inductive ConnMoves (cfg : Config) (v : ConnView) (c : Connector) : Connector → Option UInt32 → Prop
  | spawns (hpc : c.pc = .born) : ConnMoves cfg v c { c with
      files := { c.files with spawned := some (wall v.now) }
      pc := .starting } v.guest
  | stays (hpc : c.pc = .starting) : ConnMoves cfg v c { c with pc := .failed } v.guest
  | joins {id : UInt32} (hpc : c.pc = .starting) (hid : id ≠ here) :
      ConnMoves cfg v c { c with id := some id, pc := .started } (some id)
  | gives (hpc : c.pc = .failed) : ConnMoves cfg v c { c with
      files := { c.files with joined := some none }
      exit := some (.self 2) } v.guest
  | tells (hpc : c.pc = .started) : ConnMoves cfg v c { c with
      files := { c.files with joined := some c.id }
      pc := .arming } v.guest
  | arms (hpc : c.pc = .arming) :
      ConnMoves cfg v c { c with deadman := c.deadman.arm v.stamp v.now, pc := .armed } v.guest
  | starts {pc : ConnPc} (hpc : c.pc = .armed ∧ pc = .pollDone ∨ c.pc = .restart ∧ pc = .check) :
      ConnMoves cfg v c { c with deadman := c.deadman.restart v.now, pc := pc } v.guest
  | hears (hpc : c.pc = .pollDone) (hdone : v.done = true) :
      ConnMoves cfg v c { c with reason := .rootCompletionSignal, pc := .leaving } v.guest
  | listens (hpc : c.pc = .pollDone) : ConnMoves cfg v c { c with pc := .pollAlive } v.guest
  | sees (hpc : c.pc = .pollAlive) (hs : v.stamp = c.deadman.last) :
      ConnMoves cfg v c { c with deadman := c.deadman.arm v.stamp v.now, pc := .check } v.guest
  | changes (hpc : c.pc = .pollAlive) :
      ConnMoves cfg v c { c with deadman := c.deadman.arm v.stamp v.now, pc := .restart } v.guest
  | expires (hpc : c.pc = .check) (he : c.deadman.start + cfg.serveTimeout < v.now) :
      ConnMoves cfg v c { c with reason := .serveTimeoutExpired, pc := .leaving } v.guest
  | rests {till : Nat} (hpc : c.pc = .check) : ConnMoves cfg v c { c with pc := .sleep till } v.guest
  | wakes {till : Nat} (hpc : c.pc = .sleep till) : ConnMoves cfg v c { c with pc := .pollDone } v.guest
  | throws (hpc : c.pc = .leaving ∨ c.pc = .stopping) :
      ConnMoves cfg v c { c with clean := false, reason := .error, pc := .stopped } v.guest
  | departs (hpc : c.pc = .leaving) : ConnMoves cfg v c { c with pc := .stopping } none
  | stops (rc : Int) (hpc : c.pc = .stopping) :
      ConnMoves cfg v c { c with rc := rc, pc := .stopped } v.guest
  | writes (hpc : c.pc = .stopped) : ConnMoves cfg v c { c with
      files := { c.files with disconnected := some ⟨c.clean, c.rc, c.reason⟩ }
      pc := .quitting } v.guest
  | quits (hpc : c.pc = .quitting) :
      ConnMoves cfg v c { c with exit := some (.self (if c.clean then 0 else 1)) } v.guest

/-- **What a step of the connector can do.** -/
theorem conn_moves (h : connGo cfg v c a = some (c', g)) : ConnMoves cfg v c c' g := by
  unfold connGo at h
  split at h
  · cases h
  · cases h
    exact .spawns ‹_›
  · split at h
    · cases h
      exact .stays ‹_›
    · split at h
      · cases h
      · cases h
        exact .joins ‹_› ‹_›
  · cases h
    exact .gives ‹_›
  · cases h
    exact .tells ‹_›
  · cases h
    exact .arms ‹_›
  · cases h
    exact .starts (.inl ⟨‹_›, rfl⟩)
  · split at h
    · cases h
      exact .hears ‹_› ‹_›
    · cases h
      exact .listens ‹_›
  · dsimp only at h
    split at h
    · cases h
      exact .sees ‹_› ‹_›
    · cases h
      exact .changes ‹_›
  · cases h
    exact .starts (.inr ⟨‹_›, rfl⟩)
  · split at h
    · rename_i he
      cases h
      exact .expires ‹_› (of_decide_eq_true he)
    · cases h
      exact .rests ‹_›
  · split at h
    · cases h
      exact .wakes ‹_›
    · cases h
  · split at h
    · cases h
      exact .throws (.inl ‹_›)
    · cases h
      exact .departs ‹_›
  · split at h
    · cases h
      exact .throws (.inr ‹_›)
    · cases h
      exact .stops _ ‹_›
  · cases h
    exact .writes ‹_›
  · cases h
    exact .quits ‹_›

/-! ## its files and its end -/

/-- the part of the program that a place is in -/
def ConnPc.stage : ConnPc → Nat
  | .absent => 0
  | .born => 1
  | .starting => 2
  | .failed => 3
  | .started => 4
  | .arming => 5
  | .armed | .pollDone | .pollAlive | .restart | .check | .sleep _ => 6
  | .leaving => 7
  | .stopping => 8
  | .stopped => 9
  | .quitting => 10

/-- the connector is where its files and its locality put it -/
structure Enrolled (c : Connector) : Prop where
  spawned : c.files.spawned.isSome = decide (2 ≤ c.pc.stage)
  id : c.id.isSome = decide (4 ≤ c.pc.stage)
  foreign : c.id ≠ some here
  joined : 5 ≤ c.pc.stage → c.files.joined = some c.id
  disconnected : c.files.disconnected =
    if 10 ≤ c.pc.stage then some ⟨c.clean, c.rc, c.reason⟩ else none
  reason : c.reason ≠ .unknown → 7 ≤ c.pc.stage
  exit : c.exit = some (.self 0) → c.pc = .quitting ∧ c.clean = true

theorem Enrolled.moves (h : Enrolled c) (hx : c.exit = none) (hm : ConnMoves cfg v c c' g) :
    Enrolled c' := by
  obtain ⟨h1, h2, h3, h4, h5, h6, h7⟩ := h
  cases hm with
  | starts hpc =>
    rcases hpc with ⟨hpc, rfl⟩ | ⟨hpc, rfl⟩ <;> constructor <;> simp_all [ConnPc.stage]
  | throws hpc =>
    rcases hpc with hpc | hpc <;> constructor <;> simp_all [ConnPc.stage]
  | quits hpc =>
    refine ⟨h1, h2, h3, h4, h5, h6, fun he => ⟨hpc, ?_⟩⟩
    show c.clean = true
    cases hc : c.clean with
    | true => rfl
    | false => simp [hc] at he
  | spawns hpc | stays hpc | joins hpc | gives hpc | tells hpc | arms hpc | hears hpc | listens hpc
  | sees hpc | changes hpc | expires hpc | rests hpc | wakes hpc | departs hpc | stops _ hpc
  | writes hpc =>
    constructor <;> simp_all [ConnPc.stage]

/-! ## its deadman -/

/-- it has read a stamp -/
def ConnPc.reads : ConnPc → Bool
  | .armed | .restart | .pollDone | .pollAlive | .check | .sleep _ => true
  | _ => false

/-- it waits for another stamp -/
def ConnPc.watches : ConnPc → Bool
  | .pollDone | .pollAlive | .check | .sleep _ => true
  | _ => false

/-- what the deadman knows at the time `now` of the beats of the root -/
structure Watched (cfg : Config) (beats : List Nat) (now : Nat) (c : Connector) : Prop where
  read : c.deadman.readAt ≤ now
  origin : c.pc.reads = true → Deadman.Origin cfg.mtime c.deadman now
  watch : c.pc.watches = true → Deadman.Watch cfg.mtime beats c.deadman
  expired : c.reason = .serveTimeoutExpired →
    Deadman.Watch cfg.mtime beats c.deadman ∧ c.deadman.start + cfg.serveTimeout < now

variable {beats : List Nat} {now : Nat}

theorem Watched.later (h : Watched cfg beats now c) (d : Nat) : Watched cfg beats (now + d) c := by
  refine ⟨by have := h.read; omega, ?_, h.watch, ?_⟩
  · intro hr l hl
    obtain ⟨w₀, hle, hof⟩ := h.origin hr l hl
    exact ⟨w₀, by omega, hof⟩
  · intro hr
    obtain ⟨hw, hlt⟩ := h.expired hr
    exact ⟨hw, by omega⟩

theorem Watched.beat (h : Watched cfg beats now c) : Watched cfg (now :: beats) now c :=
  ⟨h.read, h.origin, fun hw => (h.watch hw).beat h.read,
    fun hr => ⟨(h.expired hr).1.beat h.read, (h.expired hr).2⟩⟩

/-- neither the deadman nor the reason has changed -/
theorem Watched.same (h : Watched cfg beats now c) (hd : c'.deadman = c.deadman)
    (hs : c'.reason = c.reason ∨ c'.reason ≠ .serveTimeoutExpired)
    (hr : c'.pc.reads = true → c.pc.reads = true) (hw : c'.pc.watches = true → c.pc.watches = true) :
    Watched cfg beats now c' := by
  refine ⟨by rw [hd]; exact h.read, ?_, ?_, ?_⟩
  · intro hp
    rw [hd]
    exact h.origin (hr hp)
  · intro hp
    rw [hd]
    exact h.watch (hw hp)
  · intro he
    rw [hd]
    rcases hs with hs | hs
    · exact h.expired (hs ▸ he)
    · exact absurd he hs

theorem Watched.moves (h : Watched cfg beats v.now c) (he : Enrolled c)
    (hb : Deadman.Beats beats v.now) (hs : v.stamp = cfg.mtime.stamp beats)
    (hm : ConnMoves cfg v c c' g) : Watched cfg beats v.now c' := by
  have hidle : c.pc.stage < 7 → c.reason ≠ .serveTimeoutExpired := by
    intro hlt hr
    have := he.reason (by rw [hr]; nofun)
    omega
  cases hm with
  | arms hpc =>
    refine ⟨Nat.le_refl _, fun _ => ?_, nofun, fun hr => absurd hr (hidle (by simp [hpc, ConnPc.stage]))⟩
    rw [hs]
    exact Deadman.Origin.arm hb
  | @starts pc hpc =>
    have hreads : c.pc.reads = true := by
      rcases hpc with ⟨hpc, _⟩ | ⟨hpc, _⟩ <;> rw [hpc] <;> rfl
    have hstage : c.pc.stage < 7 := by
      rcases hpc with ⟨hpc, _⟩ | ⟨hpc, _⟩ <;> simp [hpc, ConnPc.stage]
    have hwatch : Deadman.Watch cfg.mtime beats (c.deadman.restart v.now) :=
      .restart (h.origin hreads) (Nat.le_refl _) h.read
    exact ⟨h.read, fun _ => hwatch.origin, fun _ => hwatch, fun hr => absurd hr (hidle hstage)⟩
  | sees hpc hsame =>
    have hwatch := (h.watch (by rw [hpc]; rfl)).look hb (hs.symm.trans hsame)
    rw [← hs] at hwatch
    refine ⟨Nat.le_refl _, fun _ => ?_, fun _ => hwatch,
      fun hr => absurd hr (hidle (by simp [hpc, ConnPc.stage]))⟩
    rw [hs]
    exact Deadman.Origin.arm hb
  | changes hpc =>
    refine ⟨Nat.le_refl _, fun _ => ?_, nofun, fun hr => absurd hr (hidle (by simp [hpc, ConnPc.stage]))⟩
    rw [hs]
    exact Deadman.Origin.arm hb
  | expires hpc hlt =>
    exact ⟨h.read, nofun, nofun, fun _ => ⟨h.watch (by rw [hpc]; rfl), hlt⟩⟩
  | hears hpc => exact h.same rfl (.inr nofun) nofun nofun
  | throws hpc => exact h.same rfl (.inr nofun) nofun nofun
  | listens hpc => exact h.same rfl (.inl rfl) (by simp [hpc, ConnPc.reads]) (by simp [hpc, ConnPc.watches])
  | rests hpc => exact h.same rfl (.inl rfl) (by simp [hpc, ConnPc.reads]) (by simp [hpc, ConnPc.watches])
  | wakes hpc => exact h.same rfl (.inl rfl) (by simp [hpc, ConnPc.reads]) (by simp [hpc, ConnPc.watches])
  | spawns hpc | stays hpc | joins hpc | tells hpc | departs hpc | stops _ hpc | writes hpc =>
    exact h.same rfl (.inl rfl) nofun nofun
  | gives hpc | quits hpc => exact h.same rfl (.inl rfl) id id

/-! ## what the others see of a move -/

theorem ConnMoves.enrolled (hm : ConnMoves cfg v c c' g) {i : UInt32} (h : c.id = some i)
    (he : Enrolled c) : c'.id = some i ∧ (g = v.guest ∨ g = none) := by
  cases hm with
  | joins hpc hid =>
    have hid := he.id
    rw [h, hpc] at hid
    cases hid
  | departs hpc => exact ⟨h, .inr rfl⟩
  | _ => exact ⟨h, .inl rfl⟩

/-- a member besides the root is the connector -/
theorem ConnMoves.guest (hm : ConnMoves cfg v c c' g) (hg : ∀ i, v.guest = some i → c.id = some i) :
    ∀ i, g = some i → c'.id = some i := by
  cases hm with
  | joins hpc hid => exact fun _ => id
  | departs hpc => exact nofun
  | _ => exact hg

theorem ConnMoves.present (hm : ConnMoves cfg v c c' g) : c.pc ≠ .absent := by
  cases hm with
  | starts hpc => rcases hpc with ⟨hpc, _⟩ | ⟨hpc, _⟩ <;> simp [hpc]
  | throws hpc => rcases hpc with hpc | hpc <;> simp [hpc]
  | spawns hpc | stays hpc | joins hpc | gives hpc | tells hpc | arms hpc | hears hpc | listens hpc
  | sees hpc | changes hpc | expires hpc | rests hpc | wakes hpc | departs hpc | stops _ hpc
  | writes hpc | quits hpc => simp [hpc]

theorem ConnMoves.spawn (hm : ConnMoves cfg v c c' g) {w : Nat} (h : c'.files.spawned = some w) :
    c.files.spawned = some w ∨ w = wall v.now := by
  cases hm with
  | spawns hpc => exact .inr (Option.some.inj h).symm
  | _ => exact .inl h

theorem ConnMoves.spawned (hm : ConnMoves cfg v c c' g) (he : Enrolled c) {w : Nat}
    (h : c.files.spawned = some w) : c'.files.spawned = some w := by
  cases hm with
  | spawns hpc =>
    have hs := he.spawned
    rw [h, hpc] at hs
    cases hs
  | _ => exact h

theorem ConnMoves.heard (hm : ConnMoves cfg v c c' g) (h : c'.reason = .rootCompletionSignal) :
    c.reason = .rootCompletionSignal ∨ v.done = true := by
  cases hm with
  | hears hpc hdone => exact .inr hdone
  | expires hpc he => cases h
  | throws hpc => cases h
  | _ => exact .inl h

end Demand
end RayX
