import RayX.Ops.Barrier

/-!
# The gate is a rendezvous

What the invariant of the gate says about whole runs of `barrier_fanin`.

* `Gate.rank`            a bound on the steps that are left; only an idle step, a poll of the watchdog
                         that misses a leaf or a weak exchange that fails for no reason, does not
                         lower it;
* `rank_step`, `rank_run`   one step and a whole run against the bound;
* `Barrier.progress`     **some thread can always take a step that is not idle**;
* `Barrier.opener_reach` once the gate is set, the opener is settled;
* `barrierFanin_rendezvous`   **the gate is set once, no leaf passes it before, the body ends once the
                         leaves have been scheduled, and the witness says so.**
-/

namespace RayX
open Sys

/-! ## rank -/

def OpenPc.rank : OpenPc → Nat
  | .cas => 2
  | .store => 1
  | .set => 0

def LeafPc.rank (n : Nat) : LeafPc → Nat
  | .queued => n + 13
  | .arrives => n + 12
  | .opens o => n + 9 + o.rank
  | .suspends => n + 8
  | .bumps v => v + 7
  | .swaps v cur => v - cur + 6
  | .blocked => 5
  | .resumes => 4
  | .checks => 3
  | .violates => 2
  | .releases => 1
  | .returned => 0

def MainPc.rank (n : Nat) : MainPc → Nat
  | .launch j => n - j + 11
  | .clock => 12
  | .sleeps => 11
  | .polls => 10
  | .opens o => o.rank + 7
  | .waits => 6
  | .reduces => 5
  | .notes _ => 4
  | .violates => 3
  | .folds => 2
  | .records => 1
  | .finished => 0

namespace Gate

def rank (n : Nat) (s : Gate) : Nat := total (LeafPc.rank n) s.leaf n + s.main.rank n

/-- a poll that misses a leaf, or a weak exchange that fails although the maximum is as it was -/
def idle (n : Nat) (s : Gate) : Act → Bool
  | .leaf j weak =>
    match s.leaf j with
    | .swaps v cur => weak && decide (cur < v) && decide (s.vars.maxInSuspend = cur)
    | _ => false
  | .main _ => s.main == .polls && decide (s.vars.arrived < n)

/-- the idle steps of a run -/
def idles (seed quantum : Int64) (n : Nat) : Gate → List Act → Nat
  | _, [] => 0
  | s, a :: as => (s.idle n a).toNat + match s.step seed quantum n a with
    | some s' => idles seed quantum n s' as
    | none => 0

/-- the weak exchange of the step does not fail for no reason -/
def Act.strong : Act → Bool
  | .leaf _ weak => !weak
  | .main _ => true

end Gate

theorem openStep_rank {who : Opener} {g g' : GateVars} {o o' : OpenPc}
    (h : openStep who g o = (g', some o')) : o'.rank < o.rank := by
  cases o with
  | cas =>
    rw [openStep] at h
    split at h
    · cases h
    · cases h
      decide
  | store =>
    cases h
    decide
  | set => cases h

section
variable {seed quantum : Int64} {n : Nat} {s s' : Gate}

/-- a step of a leaf goes down, or fails for no reason -/
theorem LeafMove.rank {weak : Bool} {g g' : GateVars} {pc pc' : LeafPc}
    (h : LeafMove n weak g pc g' pc') (hok : LeafOk n g pc)
    (hs : g.inSuspend + 1 ≤ n + pc.suspended) : pc'.rank n < pc.rank n ∨
      (pc' = pc ∧ weak = true ∧ ∃ v cur, pc = .swaps v cur ∧ cur < v ∧ g.maxInSuspend = cur) := by
  cases h with
  | last hn => exact Or.inl (by simp [LeafPc.rank, OpenPc.rank])
  | opens o g' o' h =>
    have hlt := openStep_rank h
    exact Or.inl (by simp [LeafPc.rank]; omega)
  | opened o g' h => exact Or.inl (by simp [LeafPc.rank]; omega)
  | suspends =>
    simp at hs
    exact Or.inl (by simp [LeafPc.rank]; omega)
  | bumps v =>
    refine Or.inl ?_
    rw [LeafPc.rank, LeafPc.rank]
    omega
  | fails v cur hlt hfail =>
    have hv := hok.swaps v cur rfl
    by_cases hmax : g.maxInSuspend = cur
    · exact Or.inr ⟨by rw [hmax], hfail hmax, v, cur, rfl, hlt, hmax⟩
    · exact Or.inl (by simp [LeafPc.rank]; omega)
  | _ => exact Or.inl (by simp [LeafPc.rank])

/-- only a leaf before a closed gate, or one that has returned, has no step -/
theorem leafStep_enabled {g : GateVars} {pc : LeafPc} (hret : pc ≠ .returned)
    (hblocked : pc = .blocked → 0 < g.sets) : ∃ r, leafStep n false g pc = some r := by
  cases pc with
  | returned => exact absurd rfl hret
  | blocked => exact ⟨_, if_pos (hblocked rfl)⟩
  | opens o =>
    rw [leafStep]
    split
    · exact ⟨_, rfl⟩
    · exact ⟨_, rfl⟩
  | swaps v cur =>
    rw [leafStep]
    split
    · split
      · exact ⟨_, rfl⟩
      · exact ⟨_, rfl⟩
    · exact ⟨_, rfl⟩
  | _ => exact ⟨_, rfl⟩

/-- a step of the body goes down, or polls in vain -/
theorem Gate.MainMove.rank {late : Bool} (hs : Gate.MainMove n late s s') :
    s'.leaf = s.leaf ∧ (s'.main.rank n < s.main.rank n ∨
      (s.main = .polls ∧ s.vars.arrived < n ∧ s'.main.rank n ≤ s.main.rank n + 2)) := by
  cases hs with
  | launches j hm hj =>
    rw [hm]
    exact ⟨rfl, Or.inl (by simp [MainPc.rank]; omega)⟩
  | launched j hm hj =>
    rw [hm]
    exact ⟨rfl, Or.inl (by simp [MainPc.rank])⟩
  | polls hm hlt =>
    rw [hm]
    exact ⟨rfl, Or.inr ⟨rfl, hlt, Nat.le_refl _⟩⟩
  | expires hm =>
    rw [hm]
    exact ⟨rfl, Or.inl (by simp [MainPc.rank, OpenPc.rank])⟩
  | opens o g o' hm h =>
    have hlt := openStep_rank h
    rw [hm]
    exact ⟨rfl, Or.inl (by simp [MainPc.rank]; omega)⟩
  | opened o g hm h =>
    rw [hm]
    refine ⟨rfl, Or.inl ?_⟩
    show 6 < o.rank + 7
    omega
  | notes saw hm =>
    rw [hm]
    refine ⟨rfl, Or.inl ?_⟩
    cases saw with
    | true => simp [MainPc.rank]
    | false => simp [MainPc.rank]
  | polled hm | clock hm | sleeps hm | waits hm | reduces hm | violates hm | folds hm | records hm =>
    rw [hm]
    exact ⟨rfl, Or.inl (by simp [MainPc.rank])⟩

namespace Barrier

/-- **One step against the rank.** -/
theorem rank_step (h : Barrier seed quantum n s) {a : Gate.Act}
    (hs : s.step seed quantum n a = some s') :
    s'.rank n + 1 ≤ s.rank n + 3 * (s.idle n a).toNat := by
  cases a with
  | leaf j weak =>
    obtain ⟨hlaunched, g', pc', hstep, rfl⟩ := Gate.step_leaf hs
    have hj : j < n := Nat.lt_of_lt_of_le hlaunched h.launched
    have hmove := total_update (w := LeafPc.rank n) (f := s.leaf) hj pc'
    show total (LeafPc.rank n) (Function.update s.leaf j pc') n + s.main.rank n + 1
      ≤ total (LeafPc.rank n) s.leaf n + s.main.rank n + _
    rcases (leafStep_move hstep).rank (h.leaves j) (h.room hj) with
      hlt | ⟨hsame, hweak, v, cur, hpc, hcv, hmax⟩
    · omega
    · have hidle : s.idle n (.leaf j weak) = true := by
        rw [Gate.idle, hpc, hweak]
        simp [hcv, hmax]
      have hrank : pc'.rank n = (s.leaf j).rank n := by rw [hsame]
      rw [hidle, Bool.toNat_true]
      omega
  | main late =>
    obtain ⟨hleaf, hmain⟩ := (Gate.mainStep_move hs).rank
    rw [Gate.rank, Gate.rank, hleaf]
    rcases hmain with hlt | ⟨hpolls, harr, hle⟩
    · omega
    · have hidle : s.idle n (.main late) = true := by
        rw [Gate.idle, hpolls]
        simp [harr]
      rw [hidle, Bool.toNat_true]
      omega

/-- **A whole run against the rank**: its length is bounded but for its idle steps. -/
theorem rank_run (h : Barrier seed quantum n s) {as : List Gate.Act}
    (hr : run (Gate.step seed quantum n) s as = some s') :
    as.length + s'.rank n ≤ s.rank n + 3 * s.idles seed quantum n as := by
  induction as generalizing s with
  | nil =>
    cases hr
    rw [List.length_nil]
    omega
  | cons a as ih =>
    obtain ⟨m, hm, hr⟩ := run_cons.mp hr
    have hone := h.rank_step hm
    have hrest := ih (h.step hm) hr
    rw [Gate.idles, hm, List.length_cons]
    dsimp only
    omega

/-- once all the leaves have arrived, only a weak exchange can be idle -/
theorem idle_arrived (harr : s.vars.arrived = n) {a : Gate.Act} (ha : a.strong = true) :
    s.idle n a = false := by
  cases a with
  | leaf j weak =>
    cases weak with
    | true => cases ha
    | false =>
      rw [Gate.idle]
      split <;> rfl
  | main late =>
    rw [Gate.idle, decide_eq_false (by omega), Bool.and_false]

/-- arrivals and the promise only go on, and behind a set promise nobody records an opener -/
theorem onward (h : Barrier seed quantum n s) {a : Gate.Act}
    (hs : s.step seed quantum n a = some s') : s.vars.arrived ≤ s'.vars.arrived ∧
      s.vars.sets ≤ s'.vars.sets ∧ (s.vars.sets = 1 → s'.vars.opener = s.vars.opener) := by
  have hwin := h.winning
  have hb := Bool.toNat_le s.vars.opened
  cases a with
  | leaf j weak =>
    obtain ⟨hlaunched, g', pc', hstep, rfl⟩ := Gate.step_leaf hs
    have hj : j < n := Nat.lt_of_lt_of_le hlaunched h.launched
    have he := h.effect hj hstep
    refine ⟨he.arrives, he.sets, fun hset => ?_⟩
    rcases he.opener with hsame | ⟨_, hpc⟩
    · exact hsame
    · have hle := le_total (w := LeafPc.inside OpenPc.winning) (f := s.leaf) hj
      have hone : (s.leaf j).inside OpenPc.winning = 1 := by rw [hpc]; rfl
      omega
  | main late =>
    have hopen : ∀ {o g o'}, s.main = .opens o → openStep .watchdog s.vars o = (g, o') →
        s.vars.arrived ≤ g.arrived ∧ s.vars.sets ≤ g.sets ∧
        (s.vars.sets = 1 → g.opener = s.vars.opener) := by
      intro o g o' hm ho
      have he := h.openEffect hm ho
      refine ⟨Nat.le_of_eq (openStep_frame ho).arrived.symm, he.sets, fun hset => ?_⟩
      rcases he.opener with hsame | ⟨_, hstore⟩
      · exact hsame
      · have hone : s.main.inside OpenPc.winning = 1 := by rw [hm, hstore]; rfl
        omega
    cases Gate.mainStep_move hs with
    | opens o g o' hm ho => exact hopen hm ho
    | opened o g hm ho => exact hopen hm ho
    | _ => exact ⟨Nat.le_refl _, Nat.le_refl _, fun _ => rfl⟩

/-- the body goes on, unless it polls -/
theorem main_goes (hs : s.mainStep n false = some s')
    (hpolls : s.main = .polls → ¬ s.vars.arrived < n) :
    ∃ a s', a.strong = true ∧ s.idle n a = false ∧ s.step seed quantum n a = some s' := by
  refine ⟨.main false, s', rfl, ?_, hs⟩
  rw [Gate.idle]
  by_cases hp : s.main = .polls
  · rw [decide_eq_false (hpolls hp), Bool.and_false]
  · rw [beq_eq_false_iff_ne.mpr hp, Bool.false_and]

/-- a launched leaf goes on, unless it waits at the gate -/
theorem leaf_goes {j : Nat} (hj : j < s.main.launched n) (hret : s.leaf j ≠ .returned)
    (hblocked : s.leaf j = .blocked → 0 < s.vars.sets) :
    ∃ a s', a.strong = true ∧ s.idle n a = false ∧ s.step seed quantum n a = some s' := by
  obtain ⟨r, hr⟩ := leafStep_enabled (n := n) hret hblocked
  refine ⟨.leaf j false, { s with
    vars := r.1, leaf := Function.update s.leaf j r.2, value := s.computed seed quantum j },
    rfl, ?_, ?_⟩
  · rw [Gate.idle]
    split <;> rfl
  · rw [Gate.step, if_pos hj, hr]
    rfl

/-- behind a body that waits for the leaves, all of them at the gate or through it, the gate is set -/
theorem gate_set (h : Barrier seed quantum n s) (hpc : s.main = .waits)
    (hall : ∀ i < n, s.leaf i = .returned ∨ s.leaf i = .blocked) : 0 < s.vars.sets := by
  have harr : s.vars.arrived = n := by
    rw [h.arrived]
    refine total_ones (fun i hi => ?_)
    rcases hall i hi with hi' | hi' <;> rw [hi'] <;> rfl
  have hopened : s.vars.opened = true := by
    rcases h.someone harr with hop | ⟨i, hi, hcas⟩
    · exact hop
    · rcases hall i hi with hi' | hi' <;> rw [hi'] at hcas <;> cases hcas
  have hnone : total (LeafPc.inside OpenPc.winning) s.leaf n = 0 := by
    refine total_zero (fun i hi => ?_)
    rcases hall i hi with hi' | hi' <;> rw [hi'] <;> rfl
  have hw := h.winning
  have hin : MainPc.inside OpenPc.winning .waits = 0 := rfl
  rw [hpc, hin, hnone, hopened, Bool.toNat_true] at hw
  omega

/-- **No deadlock**: some thread can take a step that is not idle. -/
theorem progress (h : Barrier seed quantum n s) (hm : s.main ≠ .finished) :
    ∃ a s', a.strong = true ∧ s.idle n a = false ∧ s.step seed quantum n a = some s' := by
  have hstep : ∀ (m : MainPc), s.main = m → m ≠ .polls → (∃ s', s.mainStep n false = some s') →
      ∃ a s', a.strong = true ∧ s.idle n a = false ∧ s.step seed quantum n a = some s' := by
    rintro m rfl hp ⟨s', hs⟩
    exact main_goes hs (fun h => absurd h hp)
  cases hpc : s.main with
  | launch j => exact hstep _ hpc (fun h => by cases h) ⟨_, by rw [Gate.mainStep, hpc]⟩
  | clock => exact hstep _ hpc (fun h => by cases h) ⟨_, by rw [Gate.mainStep, hpc]⟩
  | sleeps => exact hstep _ hpc (fun h => by cases h) ⟨_, by rw [Gate.mainStep, hpc]⟩
  | reduces => exact hstep _ hpc (fun h => by cases h) ⟨_, by rw [Gate.mainStep, hpc]⟩
  | notes saw => exact hstep _ hpc (fun h => by cases h) ⟨_, by rw [Gate.mainStep, hpc]⟩
  | folds => exact hstep _ hpc (fun h => by cases h) ⟨_, by rw [Gate.mainStep, hpc]⟩
  | records => exact hstep _ hpc (fun h => by cases h) ⟨_, by rw [Gate.mainStep, hpc]⟩
  | violates => exact absurd hpc h.main.clean
  | finished => exact absurd hpc hm
  | opens o =>
    refine hstep _ hpc (fun h => by cases h) ?_
    rw [Gate.mainStep, hpc]
    dsimp only
    split
    · exact ⟨_, rfl⟩
    · exact ⟨_, rfl⟩
  | polls =>
    by_cases hlt : s.vars.arrived < n
    · -- a leaf has not arrived yet
      have hne : total LeafPc.arrived s.leaf n ≠ n := by
        rw [← h.arrived]
        omega
      obtain ⟨j, hj, hw⟩ := exists_of_total_ne hne
      have hlaunched : j < s.main.launched n := by
        rw [hpc]
        exact hj
      refine leaf_goes hlaunched (fun hr => ?_) (fun hb => ?_)
      · rw [hr] at hw
        exact absurd rfl hw
      · rw [hb] at hw
        exact absurd rfl hw
    · exact main_goes (by rw [Gate.mainStep, hpc]) (fun _ => hlt)
  | waits =>
    have hall : ∀ j, j < n → j < s.main.launched n := by
      intro j hj
      rw [hpc]
      exact hj
    cases hjoin : s.joined n with
    | true => exact hstep _ hpc (fun h => by cases h) ⟨_, by rw [Gate.mainStep, hpc]; exact if_pos hjoin⟩
    | false =>
      by_cases hfree : ∃ j < n, s.leaf j ≠ .returned ∧ s.leaf j ≠ .blocked
      · obtain ⟨j, hj, hret, hblk⟩ := hfree
        exact leaf_goes (hall j hj) hret (fun hb => absurd hb hblk)
      · -- a leaf at the gate is released
        push Not at hfree
        obtain ⟨j, hj, hret⟩ := List.all_eq_false.mp hjoin
        have hjn : j < n := List.mem_range.mp hj
        have hret' : s.leaf j ≠ .returned := fun hr => hret (by rw [hr]; rfl)
        have hsplit : ∀ i < n, s.leaf i = .returned ∨ s.leaf i = .blocked := by
          intro i hi
          by_cases hr : s.leaf i = .returned
          · exact Or.inl hr
          · exact Or.inr (hfree i hi hr)
        exact leaf_goes (hall j hjn) hret' (fun _ => h.gate_set hpc hsplit)

/-- behind a set promise the opener stays -/
theorem opener_reach (h : Barrier seed quantum n s) (hs : s.vars.sets = 1)
    (hr : Reach (Gate.step seed quantum n) s s') : s'.vars.opener = s.vars.opener := by
  have hinv : Barrier seed quantum n s' ∧ s'.vars.sets = 1 ∧ s'.vars.opener = s.vars.opener := by
    refine hr.inv (P := fun t => Barrier seed quantum n t ∧ t.vars.sets = 1 ∧
      t.vars.opener = s.vars.opener) ?_ ⟨h, hs, rfl⟩
    rintro t a t' ⟨ht, hset, hop⟩ hstep
    obtain ⟨_, hsets, hsame⟩ := ht.onward hstep
    have ht' := ht.step hstep
    have hle := ht'.sets_le
    exact ⟨ht', by omega, (hsame hset).trans hop⟩
  exact hinv.2.2

/-- all have arrived, and go on from there -/
theorem arrived_step (h : Barrier seed quantum n s) (harr : s.vars.arrived = n) {a : Gate.Act}
    (hs : s.step seed quantum n a = some s') : s'.vars.arrived = n := by
  have hmono := (h.onward hs).1
  have hle := (h.step hs).arrived_le
  omega

/-- from there on a run without failures of the weak exchange for no reason is bounded by the rank -/
theorem ends (h : Barrier seed quantum n s) (harr : s.vars.arrived = n) {as : List Gate.Act}
    (hr : run (Gate.step seed quantum n) s as = some s') (hstrong : ∀ a ∈ as, a.strong = true) :
    as.length + s'.rank n ≤ s.rank n := by
  induction as generalizing s with
  | nil =>
    cases hr
    rw [List.length_nil]
    omega
  | cons a as ih =>
    obtain ⟨m, hm, hr⟩ := run_cons.mp hr
    have hone := h.rank_step hm
    rw [idle_arrived harr (hstrong a List.mem_cons_self), Bool.toNat_false] at hone
    have hrest := ih (h.step hm) (h.arrived_step harr hm) hr
      (fun b hb => hstrong b (List.mem_cons_of_mem a hb))
    rw [List.length_cons]
    omega

/-- a leaf past the gate, or a release, needs the promise -/
theorem sets_of_past (h : Barrier seed quantum n s)
    (hp : (∃ j, (s.leaf j).past = true) ∨ 0 < s.vars.released) : s.vars.sets = 1 := by
  have hle := h.sets_le
  have hpast : ∃ j, (s.leaf j).past = true := by
    rcases hp with hp | hp
    · exact hp
    · by_contra hno
      push Not at hno
      have hzero : total LeafPc.released s.leaf n = 0 := by
        refine total_zero (fun i _ => ?_)
        cases hi : s.leaf i with
        | returned => exact absurd (by rw [hi]; rfl) (hno i)
        | _ => rfl
      have hrel := h.released
      omega
  obtain ⟨j, hj⟩ := hpast
  have hpos := (h.leaves j).past hj
  omega

end Barrier

/-! ## the law -/

/-- a call that has ended -/
structure GateExit (seed quantum : Int64) (n : Nat) (s : Gate) : Prop where
  sets : s.vars.sets = 1
  counts : s.vars.arrived = n ∧ s.vars.released = n ∧ s.vars.inSuspend = 0
  peak : 1 ≤ s.vars.maxInSuspend ∧ s.vars.maxInSuspend ≤ n
  value : s.result = fanin seed n (chainStage · quantum)
  witness : ∃ w, s.witness = some w ∧ w.leavesRequested = n ∧ w.arrivedCount = n ∧
    w.releasedCount = n ∧ w.joinedCount = n ∧ w.orderingViolations = 0 ∧
    w.reductionAfterAllLeaves = true ∧ w.cleanExit = true ∧
    1 ≤ w.maxSimultaneouslySuspendedLeaves ∧ w.maxSimultaneouslySuspendedLeaves ≤ n ∧
    (w.opener = "last_arriver" ∨ w.opener = "watchdog")

/-- the rendezvous of one call of `barrier_fanin`, in every interleaving -/
structure Rendezvous (seed quantum : Int64) (n : Nat) : Prop where
  /-- the promise is set once at most, and once in a call that has ended -/
  once : ∀ s, Reach (Gate.step seed quantum n) Gate.init s → s.vars.sets ≤ 1
  /-- no leaf is past a gate that is not open -/
  gated : ∀ s, Reach (Gate.step seed quantum n) Gate.init s →
    (∃ j, (s.leaf j).past = true) ∨ 0 < s.vars.released → s.vars.sets = 1 ∧ s.vars.opened = true
  /-- if in the end the opener is the last arriver, all had arrived when the first passed -/
  ordered : ∀ s s', Reach (Gate.step seed quantum n) Gate.init s →
    Reach (Gate.step seed quantum n) s s' → s'.vars.opener = .lastArriver →
    (∃ j, (s.leaf j).past = true) ∨ 0 < s.vars.released → s.vars.arrived = n
  /-- some thread can go on until the call has ended -/
  progress : ∀ s, Reach (Gate.step seed quantum n) Gate.init s → s.main ≠ .finished →
    ∃ a s', a.strong = true ∧ s.idle n a = false ∧ s.step seed quantum n a = some s'
  /-- a run is as long as its idle steps allow: polls that miss a leaf and failures of the weak
  exchange for no reason -/
  bounded : ∀ as s, run (Gate.step seed quantum n) Gate.init as = some s →
    as.length ≤ Gate.init.rank n + 3 * Gate.init.idles seed quantum n as
  /-- once every leaf has been scheduled up to its arrival, the call ends -/
  ends : ∀ s, Reach (Gate.step seed quantum n) Gate.init s → s.vars.arrived = n →
    ∀ as s', run (Gate.step seed quantum n) s as = some s' → (∀ a ∈ as, a.strong = true) →
    as.length ≤ s.rank n
  exit : ∀ s, Reach (Gate.step seed quantum n) Gate.init s → s.main = .finished →
    GateExit seed quantum n s
  /-- the counters never exceed the number of leaves -/
  counters : ∀ s, Reach (Gate.step seed quantum n) Gate.init s → s.vars.arrived ≤ n ∧
    s.vars.released ≤ n ∧ s.vars.inSuspend ≤ n ∧ s.vars.maxInSuspend ≤ n ∧
    s.vars.orderingViolations = 0

theorem Barrier.exit (h : Barrier seed quantum n s) (hn : 0 < n) (hm : s.main = .finished) :
    GateExit seed quantum n s := by
  have hall := h.main.joined (by rw [hm]; rfl)
  have harr : s.vars.arrived = n := by
    rw [h.arrived]
    exact total_ones (fun j hj => by rw [hall j hj]; rfl)
  have hrel : s.vars.released = n := by
    rw [h.released]
    exact total_ones (fun j hj => by rw [hall j hj]; rfl)
  have hsus : s.vars.inSuspend = 0 := by
    rw [h.suspended]
    exact total_zero (fun j hj => by rw [hall j hj]; rfl)
  have hfirst := hall 0 hn
  have hsets := h.sets_of_past (Or.inl ⟨0, by rw [hfirst]; rfl⟩)
  have hpeak : 1 ≤ s.vars.maxInSuspend := (h.leaves 0).bumped (by rw [hfirst]; rfl)
  have hopener : s.vars.opener.chosen = 1 := by
    have hst := h.storing
    have hop := h.opened_of_sets (by omega)
    have hzero : total (LeafPc.inside OpenPc.storing) s.leaf n = 0 :=
      total_zero (fun j hj => by rw [hall j hj]; rfl)
    have hin : MainPc.inside OpenPc.storing .finished = 0 := rfl
    rw [hm, hin, hzero, hop, Bool.toNat_true] at hst
    omega
  refine ⟨hsets, ⟨harr, hrel, hsus⟩, ⟨hpeak, h.max_le⟩, h.main.result (Or.inr hm), ?_⟩
  refine ⟨witnessOf n s.vars, h.main.witness hm, rfl, harr, hrel, hrel, h.violations,
    h.main.saw (Or.inr (Or.inr hm)), decide_eq_true hrel, hpeak, h.max_le, ?_⟩
  show s.vars.opener.name = _ ∨ s.vars.opener.name = _
  cases ho : s.vars.opener with
  | none =>
    rw [ho] at hopener
    cases hopener
  | lastArriver => exact Or.inl rfl
  | watchdog => exact Or.inr rfl

end

/-- **The gate of `barrier_fanin` is a rendezvous**, for every number of leaves and in every
interleaving. -/
theorem barrierFanin_rendezvous (seed quantum : Int64) {leaves : Int64} (h1 : 1 ≤ leaves) :
    Rendezvous seed quantum leaves.toInt.toNat := by
  have hpos : 1 ≤ leaves.toInt := Int64.le_iff_toInt_le.1 h1
  have hn : 0 < leaves.toInt.toNat := by omega
  have hinv : ∀ s, Reach (Gate.step seed quantum leaves.toInt.toNat) Gate.init s →
      Barrier seed quantum leaves.toInt.toNat s := fun s hs => Barrier.reach hn hs
  refine ⟨?_, ?_, ?_, ?_, ?_, ?_, ?_, ?_⟩
  · intro s hs
    exact (hinv s hs).sets_le
  · intro s hs hp
    have hset := (hinv s hs).sets_of_past hp
    exact ⟨hset, (hinv s hs).opened_of_sets (by omega)⟩
  · intro s s' hs hs' hlast hp
    have hb := hinv s hs
    have hsame := hb.opener_reach (hb.sets_of_past hp) hs'
    exact hb.last (hsame.symm.trans hlast)
  · intro s hs hm
    exact (hinv s hs).progress hm
  · intro as s hr
    have hrun := (barrier_init hn).rank_run hr
    omega
  · intro s hs harr as s' hr hstrong
    have hlen := (hinv s hs).ends harr hr hstrong
    omega
  · intro s hs hm
    exact (hinv s hs).exit hn hm
  · intro s hs
    have hb := hinv s hs
    refine ⟨hb.arrived_le, ?_, ?_, hb.max_le, hb.violations⟩
    · rw [hb.released]
      exact total_le LeafPc.released_le _
    · rw [hb.suspended]
      exact total_le LeafPc.suspended_le _

/-- two leaves -/
theorem barrierFanin_rendezvous_two : (1 : Int64) ≤ 2 ∧ Rendezvous 5 100 (2 : Int64).toInt.toNat :=
  ⟨by decide, barrierFanin_rendezvous 5 100 (by decide)⟩

end RayX
