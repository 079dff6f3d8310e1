import RayX.Ops.Gate

/-!
# The gate is a rendezvous

What holds in every interleaving of the leaves, the watchdog and the reduction of one call of
`barrier_fanin`.

* `LeafMove`, `Gate.MainMove`       the steps of a leaf and of the body;
* `LeafEffect`, `LeafMove.effect`   what one step of a leaf does to the shared variables, counted by
                                    weights of the places of the leaf;
* `LeafOk`                          where a leaf can be, given the shared variables;
* `Barrier`                         the invariant: the counters count the leaves, at most one thread is
                                    behind the exchange, the last arriver opens only when all have
                                    arrived;
* `Barrier.reach`                   **every interleaving keeps the invariant.**
-/

namespace RayX
open Sys

/-! ## weights -/

namespace LeafPc

@[simp] def arrived : LeafPc → Nat
  | .queued | .arrives => 0
  | _ => 1

@[simp] def suspended : LeafPc → Nat
  | .bumps _ | .swaps _ _ | .blocked | .resumes => 1
  | _ => 0

@[simp] def released : LeafPc → Nat
  | .returned => 1
  | _ => 0

/-- past the gate -/
@[simp] def past : LeafPc → Bool
  | .resumes | .checks | .violates | .releases | .returned => true
  | _ => false

/-- past `bump_max` -/
@[simp] def bumped : LeafPc → Bool
  | .blocked => true
  | pc => pc.past

end LeafPc

/-- behind a successful exchange -/
@[simp] def OpenPc.winning : OpenPc → Nat
  | .cas => 0
  | _ => 1

/-- before the store of the opener -/
@[simp] def OpenPc.storing : OpenPc → Nat
  | .store => 1
  | _ => 0

/-- a weight of the places inside `open_gate` -/
@[simp] def LeafPc.inside (w : OpenPc → Nat) : LeafPc → Nat
  | .opens o => w o
  | _ => 0

@[simp] def MainPc.inside (w : OpenPc → Nat) : MainPc → Nat
  | .opens o => w o
  | _ => 0

/-- the weight of an outcome of `openStep` -/
@[simp] def weighed (w : OpenPc → Nat) : Option OpenPc → Nat
  | some o => w o
  | none => 0

/-- `1` once an opener is recorded -/
def Opener.chosen : Opener → Nat
  | .none => 0
  | _ => 1

theorem LeafPc.arrived_le (pc : LeafPc) : pc.arrived ≤ 1 := by
  cases pc <;> simp

theorem LeafPc.suspended_le (pc : LeafPc) : pc.suspended ≤ 1 := by
  cases pc <;> simp

theorem LeafPc.released_le (pc : LeafPc) : pc.released ≤ 1 := by
  cases pc <;> simp

/-! ## what a step does -/

/-- what one step of `open_gate` does -/
structure OpenEffect (who : Opener) (g : GateVars) (o : OpenPc) (g' : GateVars)
    (o' : Option OpenPc) : Prop where
  winning : g'.sets + weighed OpenPc.winning o' + g.opened.toNat = g.sets + o.winning + g'.opened.toNat
  storing : g'.opener.chosen + weighed OpenPc.storing o' + g.opened.toNat
    = g.opener.chosen + o.storing + g'.opened.toNat
  opener : g'.opener = g.opener ∨ (g'.opener = who ∧ o = .store)
  opened : g.opened = true → g'.opened = true
  sets : g.sets ≤ g'.sets
  cas : o = .cas → g'.opened = true
  left : o' ≠ some .cas

/-- `open_gate` writes its own variables only -/
structure OpenFrame (g g' : GateVars) : Prop where
  arrived : g'.arrived = g.arrived
  released : g'.released = g.released
  inSuspend : g'.inSuspend = g.inSuspend
  maxInSuspend : g'.maxInSuspend = g.maxInSuspend
  orderingViolations : g'.orderingViolations = g.orderingViolations
  reductionSawAll : g'.reductionSawAll = g.reductionSawAll

section
variable {who : Opener} {g g' : GateVars} {o : OpenPc} {o' : Option OpenPc}

theorem openStep_frame (h : openStep who g o = (g', o')) : OpenFrame g g' := by
  cases o with
  | cas =>
    rw [openStep] at h
    split at h
    · cases h
      exact ⟨rfl, rfl, rfl, rfl, rfl, rfl⟩
    · cases h
      exact ⟨rfl, rfl, rfl, rfl, rfl, rfl⟩
  | store =>
    cases h
    exact ⟨rfl, rfl, rfl, rfl, rfl, rfl⟩
  | set =>
    cases h
    exact ⟨rfl, rfl, rfl, rfl, rfl, rfl⟩

theorem openStep_effect (h : openStep who g o = (g', o')) (hwho : who.chosen = 1)
    (ho : g.opener.chosen + o.storing ≤ 1) : OpenEffect who g o g' o' := by
  cases o with
  | cas =>
    rw [openStep] at h
    split at h
    · rename_i hg
      cases h
      constructor <;> simp [hg]
    · rename_i hg
      rw [Bool.not_eq_true] at hg
      cases h
      constructor <;> simp [hg]
  | store =>
    have h0 : g.opener.chosen = 0 := by
      have h1 : OpenPc.store.storing = 1 := rfl
      omega
    cases h
    constructor <;> simp [hwho, h0]
  | set =>
    cases h
    constructor <;> simp

end

/-- the steps of a leaf -/
inductive LeafMove (n : Nat) (weak : Bool) (g : GateVars) : LeafPc → GateVars → LeafPc → Prop
  | starts : LeafMove n weak g .queued g .arrives
  | last (hn : g.arrived + 1 = n) :
      LeafMove n weak g .arrives { g with arrived := g.arrived + 1 } (.opens .cas)
  | arrives (hn : g.arrived + 1 ≠ n) :
      LeafMove n weak g .arrives { g with arrived := g.arrived + 1 } .suspends
  | opens (o : OpenPc) (g' : GateVars) (o' : OpenPc)
      (h : openStep .lastArriver g o = (g', some o')) : LeafMove n weak g (.opens o) g' (.opens o')
  | opened (o : OpenPc) (g' : GateVars) (h : openStep .lastArriver g o = (g', none)) :
      LeafMove n weak g (.opens o) g' .suspends
  | suspends : LeafMove n weak g .suspends { g with inSuspend := g.inSuspend + 1 }
      (.bumps (g.inSuspend + 1))
  | bumps (v : Nat) : LeafMove n weak g (.bumps v) g (.swaps v g.maxInSuspend)
  | raises (v cur : Nat) (hv : cur < v) (hcur : g.maxInSuspend = cur) :
      LeafMove n weak g (.swaps v cur) { g with maxInSuspend := v } .blocked
  | fails (v cur : Nat) (hv : cur < v) (hfail : g.maxInSuspend = cur → weak = true) :
      LeafMove n weak g (.swaps v cur) g (.swaps v g.maxInSuspend)
  | stops (v cur : Nat) (hv : v ≤ cur) : LeafMove n weak g (.swaps v cur) g .blocked
  | passes (hsets : 0 < g.sets) : LeafMove n weak g .blocked g .resumes
  | resumes : LeafMove n weak g .resumes { g with inSuspend := g.inSuspend - 1 } .checks
  | sees (hg : g.opened = true) : LeafMove n weak g .checks g .releases
  | misses (hg : g.opened = false) : LeafMove n weak g .checks g .violates
  | violates : LeafMove n weak g .violates
      { g with orderingViolations := g.orderingViolations + 1 } .releases
  | releases : LeafMove n weak g .releases { g with released := g.released + 1 } .returned

theorem leafStep_move {n : Nat} {weak : Bool} {g g' : GateVars} {pc pc' : LeafPc}
    (h : leafStep n weak g pc = some (g', pc')) : LeafMove n weak g pc g' pc' := by
  cases pc with
  | queued =>
    cases h
    exact .starts
  | arrives =>
    cases h
    split
    · exact .last ‹_›
    · exact .arrives ‹_›
  | opens o =>
    rw [leafStep] at h
    split at h
    · cases h
      exact .opens o g' _ ‹_›
    · cases h
      exact .opened o g' ‹_›
  | suspends =>
    cases h
    exact .suspends
  | bumps v =>
    cases h
    exact .bumps v
  | swaps v cur =>
    rw [leafStep] at h
    split at h
    · rename_i hv
      split at h
      · rename_i hcur
        cases h
        exact .raises v cur hv hcur.1
      · rename_i hfail
        cases h
        refine .fails v cur hv (fun hcur => ?_)
        exact Bool.of_not_eq_false fun hweak => hfail ⟨hcur, hweak⟩
    · rename_i hv
      cases h
      exact .stops v cur (Nat.le_of_not_lt hv)
  | blocked =>
    rw [leafStep] at h
    split at h
    · cases h
      exact .passes ‹_›
    · cases h
  | resumes =>
    cases h
    exact .resumes
  | checks =>
    cases h
    split
    · exact .sees ‹_›
    · exact .misses (Bool.eq_false_iff.mpr ‹_›)
  | violates =>
    cases h
    exact .violates
  | releases =>
    cases h
    exact .releases
  | returned => cases h

/-- the step of a leaf, on the variables and on its own place -/
theorem Gate.step_leaf {seed quantum : Int64} {n : Nat} {s s' : Gate} {j : Nat} {weak : Bool}
    (h : s.step seed quantum n (.leaf j weak) = some s') :
    j < s.main.launched n ∧ ∃ g pc, leafStep n weak s.vars (s.leaf j) = some (g, pc) ∧
      s' = { s with
        vars := g, leaf := Function.update s.leaf j pc, value := s.computed seed quantum j } := by
  rw [Gate.step] at h
  split at h
  · rename_i hj
    obtain ⟨r, hr, hs⟩ := Option.map_eq_some_iff.mp h
    exact ⟨hj, r.1, r.2, hr, hs.symm⟩
  · cases h

/-- the steps of the body -/
inductive Gate.MainMove (n : Nat) (late : Bool) (s : Gate) : Gate → Prop
  | launches (j : Nat) (hm : s.main = .launch j) (hj : j < n) :
      Gate.MainMove n late s { s with main := .launch (j + 1) }
  | launched (j : Nat) (hm : s.main = .launch j) (hj : ¬ j < n) :
      Gate.MainMove n late s { s with main := .polls }
  | polls (hm : s.main = .polls) (hlt : s.vars.arrived < n) :
      Gate.MainMove n late s { s with main := .clock }
  | polled (hm : s.main = .polls) (hlt : ¬ s.vars.arrived < n) :
      Gate.MainMove n late s { s with main := .waits }
  | expires (hm : s.main = .clock) : Gate.MainMove n late s { s with main := .opens .cas }
  | clock (hm : s.main = .clock) : Gate.MainMove n late s { s with main := .sleeps }
  | opens (o : OpenPc) (g : GateVars) (o' : OpenPc) (hm : s.main = .opens o)
      (h : openStep .watchdog s.vars o = (g, some o')) :
      Gate.MainMove n late s { s with vars := g, main := .opens o' }
  | opened (o : OpenPc) (g : GateVars) (hm : s.main = .opens o)
      (h : openStep .watchdog s.vars o = (g, none)) :
      Gate.MainMove n late s { s with vars := g, main := .waits }
  | sleeps (hm : s.main = .sleeps) : Gate.MainMove n late s { s with main := .polls }
  | waits (hm : s.main = .waits) (hjoin : s.joined n = true) :
      Gate.MainMove n late s { s with main := .reduces }
  | reduces (hm : s.main = .reduces) :
      Gate.MainMove n late s { s with main := .notes (decide (s.vars.released = n)) }
  | notes (saw : Bool) (hm : s.main = .notes saw) : Gate.MainMove n late s { s with
      vars := { s.vars with reductionSawAll := saw }, main := if saw then .folds else .violates }
  | violates (hm : s.main = .violates) : Gate.MainMove n late s { s with
      vars := { s.vars with orderingViolations := s.vars.orderingViolations + 1 }, main := .folds }
  | folds (hm : s.main = .folds) : Gate.MainMove n late s { s with
      result := (maskedFold ((List.range n).map fun j => (s.value j).toUInt64)).toInt64,
      main := .records }
  | records (hm : s.main = .records) :
      Gate.MainMove n late s { s with witness := some (witnessOf n s.vars), main := .finished }

theorem Gate.mainStep_move {n : Nat} {late : Bool} {s s' : Gate} (hs : s.mainStep n late = some s') :
    Gate.MainMove n late s s' := by
  rw [Gate.mainStep] at hs
  split at hs
  · rename_i j hm
    cases hs
    split
    · exact .launches j hm ‹_›
    · exact .launched j hm ‹_›
  · rename_i hm
    cases hs
    split
    · exact .polls hm ‹_›
    · exact .polled hm ‹_›
  · rename_i hm
    cases hs
    cases late with
    | true => exact .expires hm
    | false => exact .clock hm
  · rename_i o hm
    split at hs
    · cases hs
      exact .opens o _ _ hm ‹_›
    · cases hs
      exact .opened o _ hm ‹_›
  · rename_i hm
    cases hs
    exact .sleeps hm
  · rename_i hm
    split at hs
    · cases hs
      exact .waits hm ‹_›
    · cases hs
  · rename_i hm
    cases hs
    exact .reduces hm
  · rename_i saw hm
    cases hs
    exact .notes saw hm
  · rename_i hm
    cases hs
    exact .violates hm
  · rename_i hm
    cases hs
    exact .folds hm
  · rename_i hm
    cases hs
    exact .records hm
  · cases hs

/-- what one step of a leaf does -/
structure LeafEffect (n : Nat) (g : GateVars) (pc : LeafPc) (g' : GateVars) (pc' : LeafPc) : Prop where
  arrives : g.arrived ≤ g'.arrived
  arrived : g'.arrived + pc.arrived = g.arrived + pc'.arrived
  released : g'.released + pc.released = g.released + pc'.released
  suspended : g'.inSuspend + pc.suspended = g.inSuspend + pc'.suspended
  winning : g'.sets + pc'.inside OpenPc.winning + g.opened.toNat
    = g.sets + pc.inside OpenPc.winning + g'.opened.toNat
  storing : g'.opener.chosen + pc'.inside OpenPc.storing + g.opened.toNat
    = g.opener.chosen + pc.inside OpenPc.storing + g'.opened.toNat
  opener : g'.opener = g.opener ∨ (g'.opener = .lastArriver ∧ pc = .opens .store)
  opened : g.opened = true → g'.opened = true
  sets : g.sets ≤ g'.sets
  cas : pc = .opens .cas → g'.opened = true
  opens : ∀ o, pc' = .opens o → (∃ o', pc = .opens o') ∨ g'.arrived = n
  last : pc.arrived = 0 → g'.arrived = n → pc' = .opens .cas ∨ pc'.arrived = 0
  past : pc'.past = true → pc.past = true ∨ 0 < g.sets
  violations : g'.orderingViolations = g.orderingViolations ∨ pc = .violates
  clean : pc' = .violates → g.opened = false
  started : pc' ≠ .queued
  sawAll : g'.reductionSawAll = g.reductionSawAll

theorem LeafMove.effect {n : Nat} {weak : Bool} {g g' : GateVars} {pc pc' : LeafPc}
    (h : LeafMove n weak g pc g' pc') (hs : pc.suspended ≤ g.inSuspend)
    (ho : g.opener.chosen + pc.inside OpenPc.storing ≤ 1) : LeafEffect n g pc g' pc' := by
  cases h with
  | last hn =>
    constructor <;> simp [hn]
    omega
  | arrives hn => constructor <;> simp [hn]
  | opens o g' o' h =>
    obtain ⟨harr, hrel, hsus, -, hviol, hsaw⟩ := openStep_frame h
    obtain ⟨hwin, hsto, hopener, hopened, hsets, hcas, hleft⟩ := openStep_effect h rfl ho
    constructor <;> simp_all
  | opened o g' h =>
    obtain ⟨harr, hrel, hsus, -, hviol, hsaw⟩ := openStep_frame h
    obtain ⟨hwin, hsto, hopener, hopened, hsets, hcas, hleft⟩ := openStep_effect h rfl ho
    constructor <;> simp_all
  | passes hsets => constructor <;> simp [hsets]
  | resumes =>
    simp at hs
    constructor <;> simp
    omega
  | sees hg => constructor <;> simp
  | misses hg => constructor <;> simp [hg]
  | _ => constructor <;> simp

/-! ## where a leaf can be -/

/-- where a leaf can be, given the shared variables -/
structure LeafOk (n : Nat) (g : GateVars) (pc : LeafPc) : Prop where
  openers : ∀ o, pc = .opens o → g.arrived = n
  past : pc.past = true → 0 < g.sets
  clean : pc ≠ .violates
  bumps : ∀ v, pc = .bumps v → 1 ≤ v ∧ v ≤ n
  swaps : ∀ v cur, pc = .swaps v cur → 1 ≤ v ∧ v ≤ n ∧ cur ≤ g.maxInSuspend
  bumped : pc.bumped = true → 1 ≤ g.maxInSuspend

section
variable {n : Nat} {g g' : GateVars} {pc pc' : LeafPc}

theorem LeafOk.mono (h : LeafOk n g pc) (ha : g.arrived = n → g'.arrived = n)
    (hs : g.sets ≤ g'.sets) (hm : g.maxInSuspend ≤ g'.maxInSuspend) : LeafOk n g' pc where
  openers o ho := ha (h.openers o ho)
  past hp := Nat.lt_of_lt_of_le (h.past hp) hs
  clean := h.clean
  bumps := h.bumps
  swaps v cur hpc := by
    have hold := h.swaps v cur hpc
    omega
  bumped hb := Nat.le_trans (h.bumped hb) hm

/-- `bump_max` keeps the maximum between the values seen and `n` -/
structure BumpEffect (n : Nat) (g : GateVars) (g' : GateVars) (pc' : LeafPc) : Prop where
  mono : g.maxInSuspend ≤ g'.maxInSuspend
  le : g'.maxInSuspend ≤ n
  bumps : ∀ v, pc' = .bumps v → 1 ≤ v ∧ v ≤ n
  swaps : ∀ v cur, pc' = .swaps v cur → 1 ≤ v ∧ v ≤ n ∧ cur ≤ g'.maxInSuspend
  bumped : pc'.bumped = true → 1 ≤ g'.maxInSuspend

theorem LeafMove.bump {weak : Bool} (h : LeafMove n weak g pc g' pc') (hok : LeafOk n g pc)
    (hs : g.inSuspend + 1 ≤ n + pc.suspended) (hm : g.maxInSuspend ≤ n) : BumpEffect n g g' pc' := by
  have hb := hok.bumped
  cases h with
  | opens o g' o' h =>
    have hmax := (openStep_frame h).maxInSuspend
    constructor <;> simp [hmax, hm]
  | opened o g' h =>
    have hmax := (openStep_frame h).maxInSuspend
    constructor <;> simp [hmax, hm]
  | suspends =>
    simp at hs
    constructor <;> simp [hm]
    omega
  | bumps v =>
    have hv := hok.bumps v rfl
    constructor <;> simp [hm]
    omega
  | raises v cur hlt hcur =>
    have hv := hok.swaps v cur rfl
    constructor <;> simp
    · omega
    · omega
    · omega
  | fails v cur hlt hfail =>
    have hv := hok.swaps v cur rfl
    constructor <;> simp [hm]
    omega
  | stops v cur hle =>
    have hv := hok.swaps v cur rfl
    constructor <;> simp [hm]
    omega
  | _ => constructor <;> simp_all

/-- a leaf that has moved -/
theorem LeafEffect.leafOk (he : LeafEffect n g pc g' pc') (hb : BumpEffect n g g' pc')
    (hok : LeafOk n g pc) (hle : g'.arrived ≤ n) (hset : 0 < g.sets → g.opened = true) :
    LeafOk n g' pc' where
  openers o ho := by
    rcases he.opens o ho with ⟨o', hpc⟩ | hn
    · have hold := hok.openers o' hpc
      have hmono := he.arrives
      omega
    · exact hn
  past hp := by
    have hsets := he.sets
    rcases he.past hp with hpast | hpos
    · have hold := hok.past hpast
      omega
    · omega
  clean hv := by
    have hclosed := he.clean hv
    have hpos : 0 < g.sets := by
      rcases he.past (by rw [hv]; rfl) with hpast | hpos
      · exact hok.past hpast
      · exact hpos
    rw [hset hpos] at hclosed
    cases hclosed
  bumps := hb.bumps
  swaps := hb.swaps
  bumped := hb.bumped

end

/-! ## the invariant -/

/-- every future is ready -/
@[simp] def MainPc.joins : MainPc → Bool
  | .reduces | .notes _ | .violates | .folds | .records | .finished => true
  | _ => false

/-- where the body can be -/
structure MainOk (seed quantum : Int64) (n : Nat) (s : Gate) : Prop where
  joined : s.main.joins = true → ∀ j < n, s.leaf j = .returned
  clean : s.main ≠ .violates
  notes : ∀ saw, s.main = .notes saw → saw = true
  saw : s.main = .folds ∨ s.main = .records ∨ s.main = .finished → s.vars.reductionSawAll = true
  result : s.main = .records ∨ s.main = .finished → s.result = fanin seed n (chainStage · quantum)
  witness : s.main = .finished → s.witness = some (witnessOf n s.vars)

structure Barrier (seed quantum : Int64) (n : Nat) (s : Gate) : Prop where
  launched : s.main.launched n ≤ n
  fresh : ∀ j, s.main.launched n ≤ j → s.leaf j = .queued
  arrived : s.vars.arrived = total LeafPc.arrived s.leaf n
  released : s.vars.released = total LeafPc.released s.leaf n
  suspended : s.vars.inSuspend = total LeafPc.suspended s.leaf n
  winning : s.vars.sets + total (LeafPc.inside OpenPc.winning) s.leaf n
    + s.main.inside OpenPc.winning = s.vars.opened.toNat
  storing : s.vars.opener.chosen + total (LeafPc.inside OpenPc.storing) s.leaf n
    + s.main.inside OpenPc.storing = s.vars.opened.toNat
  last : s.vars.opener = .lastArriver → s.vars.arrived = n
  someone : s.vars.arrived = n → s.vars.opened = true ∨ ∃ j < n, s.leaf j = .opens .cas
  leaves : ∀ j, LeafOk n s.vars (s.leaf j)
  max_le : s.vars.maxInSuspend ≤ n
  violations : s.vars.orderingViolations = 0
  values : ∀ j, s.leaf j ≠ .queued → s.value j = chainStage (seedAt seed j) quantum
  main : MainOk seed quantum n s

section
variable {seed quantum : Int64} {n : Nat} {s s' : Gate}

/-- queued leaves weigh nothing -/
theorem total_init {w : LeafPc → Nat} (hw : w .queued = 0) : total w Gate.init.leaf n = 0 :=
  total_zero (fun _ _ => hw)

theorem barrier_init (hn : 0 < n) : Barrier seed quantum n Gate.init where
  launched := Nat.zero_le n
  fresh _ _ := rfl
  arrived := (total_init rfl).symm
  released := (total_init rfl).symm
  suspended := (total_init rfl).symm
  winning := by
    rw [total_init rfl]
    rfl
  storing := by
    rw [total_init rfl]
    rfl
  last h := by cases h
  someone h := by
    have h0 : (0 : Nat) = n := h
    omega
  leaves j := by
    constructor <;> simp [Gate.init]
  max_le := Nat.zero_le n
  violations := rfl
  values j h := absurd rfl h
  main := by
    constructor <;> simp [Gate.init]

namespace Barrier

theorem arrived_le (h : Barrier seed quantum n s) : s.vars.arrived ≤ n := by
  rw [h.arrived]
  exact total_le LeafPc.arrived_le n

theorem opened_of_sets (h : Barrier seed quantum n s) (hs : 0 < s.vars.sets) : s.vars.opened = true := by
  have hw := h.winning
  cases ho : s.vars.opened with
  | true => rfl
  | false =>
    rw [ho, Bool.toNat_false] at hw
    omega

theorem sets_le (h : Barrier seed quantum n s) : s.vars.sets ≤ 1 := by
  have hw := h.winning
  have hb := Bool.toNat_le s.vars.opened
  omega

/-- room for one more suspended leaf -/
theorem room (h : Barrier seed quantum n s) {j : Nat} (hj : j < n) :
    s.vars.inSuspend + 1 ≤ n + (s.leaf j).suspended := by
  have hmove := total_update (w := LeafPc.suspended) (f := s.leaf) hj .blocked
  have hle := total_le (f := Function.update s.leaf j .blocked) LeafPc.suspended_le n
  have h1 : LeafPc.blocked.suspended = 1 := rfl
  have hold := h.suspended
  omega

theorem effect (h : Barrier seed quantum n s) {j : Nat} (hj : j < n) {weak : Bool} {g : GateVars}
    {pc : LeafPc} (hstep : leafStep n weak s.vars (s.leaf j) = some (g, pc)) :
    LeafEffect n s.vars (s.leaf j) g pc := by
  have hsus : (s.leaf j).suspended ≤ s.vars.inSuspend := h.suspended ▸ le_total hj
  have hsto : s.vars.opener.chosen + (s.leaf j).inside OpenPc.storing ≤ 1 := by
    have hle := le_total (w := LeafPc.inside OpenPc.storing) (f := s.leaf) hj
    have hst := h.storing
    have hb := Bool.toNat_le s.vars.opened
    omega
  exact (leafStep_move hstep).effect hsus hsto

/-- the body in a place where it has joined nothing yet -/
theorem mainOk_of_not_joins {s : Gate} (hj : s.main.joins = false) : MainOk seed quantum n s := by
  have hno : ∀ {m : MainPc}, m.joins = true → s.main ≠ m := by
    rintro m hm rfl
    rw [hj] at hm
    cases hm
  refine ⟨?_, hno rfl, ?_, ?_, ?_, ?_⟩
  · intro h
    rw [hj] at h
    cases h
  · intro saw h
    exact absurd h (hno rfl)
  · rintro (h | h | h) <;> exact absurd h (hno rfl)
  · rintro (h | h) <;> exact absurd h (hno rfl)
  · intro h
    exact absurd h (hno rfl)

/-- The last arrival: the leaf that moves is about to open the gate, unless all had arrived before. -/
theorem last_arrival (h : Barrier seed quantum n s) {j : Nat} (hj : j < n) {g : GateVars} {pc : LeafPc}
    (he : LeafEffect n s.vars (s.leaf j) g pc)
    (harr : g.arrived = total LeafPc.arrived (Function.update s.leaf j pc) n) (hall : g.arrived = n) :
    pc = .opens .cas ∨ s.vars.arrived = n := by
  have h1 := he.arrived
  have hpc := LeafPc.arrived_le (s.leaf j)
  by_cases h0 : (s.leaf j).arrived = 0
  · rcases he.last h0 hall with hcas | hpc'
    · exact Or.inl hcas
    · have hfull := total_full (f := Function.update s.leaf j pc) LeafPc.arrived_le
        (harr.symm.trans hall) hj
      rw [Function.update_self] at hfull
      omega
  · have hpc' := LeafPc.arrived_le pc
    have hold := h.arrived_le
    exact Or.inr (by omega)

/-- with all leaves arrived, the gate is open or a leaf is about to open it -/
theorem someone_opens (h : Barrier seed quantum n s) {j : Nat} (hj : j < n) {g : GateVars} {pc : LeafPc}
    (he : LeafEffect n s.vars (s.leaf j) g pc) (hlast : pc = .opens .cas ∨ s.vars.arrived = n) :
    g.opened = true ∨ ∃ i < n, Function.update s.leaf j pc i = .opens .cas := by
  rcases hlast with hcas | hn
  · refine Or.inr ⟨j, hj, ?_⟩
    rw [Function.update_self, hcas]
  · rcases h.someone hn with hop | ⟨i, hi, hpc⟩
    · exact Or.inl (he.opened hop)
    · by_cases hij : i = j
      · rw [hij] at hpc
        exact Or.inl (he.cas hpc)
      · refine Or.inr ⟨i, hi, ?_⟩
        rw [Function.update_of_ne hij, hpc]

/-- a leaf has its value from its first step on -/
theorem computed_eq (h : Barrier seed quantum n s) {i j : Nat} {pc : LeafPc}
    (hi : Function.update s.leaf j pc i ≠ .queued) :
    s.computed seed quantum j i = chainStage (seedAt seed i) quantum := by
  rw [Gate.computed]
  by_cases hij : i = j
  · rw [hij]
    by_cases hq : s.leaf j = .queued
    · rw [if_pos hq, Function.update_self]
    · rw [if_neg hq]
      exact h.values j hq
  · rw [Function.update_of_ne hij] at hi
    by_cases hq : s.leaf j = .queued
    · rw [if_pos hq, Function.update_of_ne hij]
      exact h.values i hi
    · rw [if_neg hq]
      exact h.values i hi

/-- **A step of a leaf.** -/
theorem leaf (h : Barrier seed quantum n s) {j : Nat} {weak : Bool}
    (hs : s.step seed quantum n (.leaf j weak) = some s') : Barrier seed quantum n s' := by
  obtain ⟨hlaunched, g', pc', hstep, rfl⟩ := Gate.step_leaf hs
  have hj : j < n := Nat.lt_of_lt_of_le hlaunched h.launched
  have he := h.effect hj hstep
  have hb := (leafStep_move hstep).bump (h.leaves j) (h.room hj) h.max_le
  -- the counters follow the leaf
  have harr := total_update (w := LeafPc.arrived) (f := s.leaf) hj pc'
  have hrel := total_update (w := LeafPc.released) (f := s.leaf) hj pc'
  have hsup := total_update (w := LeafPc.suspended) (f := s.leaf) hj pc'
  have hwin := total_update (w := LeafPc.inside OpenPc.winning) (f := s.leaf) hj pc'
  have hstr := total_update (w := LeafPc.inside OpenPc.storing) (f := s.leaf) hj pc'
  have harr' : g'.arrived = total LeafPc.arrived (Function.update s.leaf j pc') n := by
    have h1 := he.arrived
    have h2 := h.arrived
    omega
  have hle' : g'.arrived ≤ n := by
    rw [harr']
    exact total_le LeafPc.arrived_le n
  have hkeep : s.vars.arrived = n → g'.arrived = n := by
    intro hn
    have hmono := he.arrives
    omega
  have hnotret : s.leaf j ≠ .returned := by
    intro hret
    rw [hret] at hstep
    cases hstep
  have hnojoin : ¬ s.main.joins = true := fun hjo => hnotret (h.main.joined hjo j hj)
  refine
    { launched := h.launched, fresh := ?_, arrived := harr', released := ?_, suspended := ?_,
      winning := ?_, storing := ?_, last := ?_, someone := ?_, leaves := ?_, max_le := hb.le,
      violations := ?_, values := ?_, main := ?_ }
  · intro i hi
    have hne : i ≠ j := by
      have hi' : s.main.launched n ≤ i := hi
      omega
    show Function.update s.leaf j pc' i = .queued
    rw [Function.update_of_ne hne]
    exact h.fresh i hi
  · show g'.released = total LeafPc.released (Function.update s.leaf j pc') n
    have h1 := he.released
    have h2 := h.released
    omega
  · show g'.inSuspend = total LeafPc.suspended (Function.update s.leaf j pc') n
    have h1 := he.suspended
    have h2 := h.suspended
    omega
  · show g'.sets + total (LeafPc.inside OpenPc.winning) (Function.update s.leaf j pc') n
      + s.main.inside OpenPc.winning = g'.opened.toNat
    have h1 := he.winning
    have h2 := h.winning
    omega
  · show g'.opener.chosen + total (LeafPc.inside OpenPc.storing) (Function.update s.leaf j pc') n
      + s.main.inside OpenPc.storing = g'.opened.toNat
    have h1 := he.storing
    have h2 := h.storing
    omega
  · intro hlast
    rcases he.opener with hsame | ⟨_, hpc⟩
    · exact hkeep (h.last (hsame ▸ hlast))
    · exact hkeep ((h.leaves j).openers .store hpc)
  · intro (hall : g'.arrived = n)
    exact h.someone_opens hj he (h.last_arrival hj he harr' hall)
  · refine update_all (P := fun _ pc => LeafOk n g' pc) (fun i => ?_) ?_
    · exact (h.leaves i).mono hkeep he.sets hb.mono
    · exact he.leafOk hb (h.leaves j) hle' h.opened_of_sets
  · rcases he.violations with hsame | hv
    · exact hsame.trans h.violations
    · exact absurd hv (h.leaves j).clean
  · exact fun i hi => h.computed_eq hi
  · exact mainOk_of_not_joins (Bool.eq_false_iff.mpr hnojoin)

/-- a step of the body outside `open_gate` -/
theorem advance (h : Barrier seed quantum n s) {saw : Bool} {m : MainPc} {r : Int64}
    {w : Option BarrierFaninWitness} (hl : s.main.launched n ≤ m.launched n) (hl' : m.launched n ≤ n)
    (hin : ∀ w : OpenPc → Nat, w .cas = 0 → m.inside w = s.main.inside w)
    (hm : MainOk seed quantum n
      { s with vars := { s.vars with reductionSawAll := saw }, main := m, result := r, witness := w }) :
    Barrier seed quantum n
      { s with vars := { s.vars with reductionSawAll := saw }, main := m, result := r, witness := w } where
  launched := hl'
  fresh j hj := h.fresh j (Nat.le_trans hl hj)
  arrived := h.arrived
  released := h.released
  suspended := h.suspended
  winning := by
    show _ + m.inside OpenPc.winning = _
    rw [hin OpenPc.winning rfl]
    exact h.winning
  storing := by
    show _ + m.inside OpenPc.storing = _
    rw [hin OpenPc.storing rfl]
    exact h.storing
  last := h.last
  someone := h.someone
  leaves j := (h.leaves j).mono (fun ha => ha) (Nat.le_refl _) (Nat.le_refl _)
  max_le := h.max_le
  violations := h.violations
  values := h.values
  main := hm

/-- a step from `m₀`, past the launch loop -/
theorem proceeds (h : Barrier seed quantum n s) {m₀ m : MainPc} (h0 : s.main = m₀) {saw : Bool}
    {r : Int64} {w : Option BarrierFaninWitness} (hl : m₀.launched n = n) (hl' : m.launched n = n)
    (hin : ∀ w : OpenPc → Nat, w .cas = 0 → m.inside w = m₀.inside w)
    (hm : MainOk seed quantum n
      { s with vars := { s.vars with reductionSawAll := saw }, main := m, result := r, witness := w }) :
    Barrier seed quantum n
      { s with vars := { s.vars with reductionSawAll := saw }, main := m, result := r, witness := w } := by
  refine h.advance (Nat.le_of_eq ?_) (Nat.le_of_eq hl') (fun w hw => ?_) hm
  · rw [h0, hl, hl']
  · rw [h0]
    exact hin w hw

theorem openEffect (h : Barrier seed quantum n s) {o : OpenPc} (hm : s.main = .opens o) {g : GateVars}
    {o' : Option OpenPc} (hopen : openStep .watchdog s.vars o = (g, o')) :
    OpenEffect .watchdog s.vars o g o' := by
  refine openStep_effect hopen rfl ?_
  have hst := h.storing
  have hb := Bool.toNat_le s.vars.opened
  have hin : s.main.inside OpenPc.storing = o.storing := by
    rw [hm]
    rfl
  omega

/-- the watchdog inside `open_gate` -/
theorem watchdog (h : Barrier seed quantum n s) {o : OpenPc} (hm : s.main = .opens o) {g : GateVars}
    {o' : Option OpenPc} (hopen : openStep .watchdog s.vars o = (g, o')) {m : MainPc}
    (hl : m.launched n = n) (hj : m.joins = false) (hw : ∀ w, m.inside w = weighed w o') :
    Barrier seed quantum n { s with vars := g, main := m } := by
  have hmain : ∀ w : OpenPc → Nat, s.main.inside w = w o := fun w => by rw [hm]; rfl
  have he := h.openEffect hm hopen
  obtain ⟨h1, h2, h3, h4, h5, -⟩ := openStep_frame hopen
  refine
    { launched := Nat.le_of_eq hl, fresh := ?_, arrived := h1.trans h.arrived,
      released := h2.trans h.released, suspended := h3.trans h.suspended, winning := ?_, storing := ?_,
      last := ?_, someone := ?_, leaves := ?_, max_le := ?_, violations := h5.trans h.violations,
      values := h.values, main := mainOk_of_not_joins hj }
  · intro j hj'
    refine h.fresh j ?_
    rw [hm]
    exact hl ▸ hj'
  · show g.sets + total (LeafPc.inside OpenPc.winning) s.leaf n + m.inside OpenPc.winning = g.opened.toNat
    have hold := h.winning
    have hnew := he.winning
    rw [hmain] at hold
    rw [hw]
    omega
  · show g.opener.chosen + total (LeafPc.inside OpenPc.storing) s.leaf n + m.inside OpenPc.storing
      = g.opened.toNat
    have hold := h.storing
    have hnew := he.storing
    rw [hmain] at hold
    rw [hw]
    omega
  · intro (hlast : g.opener = .lastArriver)
    rcases he.opener with hsame | ⟨hwatch, _⟩
    · exact h1.trans (h.last (hsame ▸ hlast))
    · rw [hwatch] at hlast
      cases hlast
  · intro (hall : g.arrived = n)
    rcases h.someone (h1 ▸ hall) with hop | hcas
    · exact Or.inl (he.opened hop)
    · exact Or.inr hcas
  · intro j
    exact (h.leaves j).mono (fun ha => h1.trans ha) he.sets (Nat.le_of_eq h4.symm)
  · exact h4 ▸ h.max_le

/-- **A step of the body.** -/
theorem mainMove (h : Barrier seed quantum n s) {late : Bool} (hs : Gate.MainMove n late s s') :
    Barrier seed quantum n s' := by
  have hmain := h.main
  cases hs with
  | launches j hm hj =>
    refine h.advance ?_ hj (fun w _ => by rw [hm]; rfl) (mainOk_of_not_joins rfl)
    rw [hm]
    exact Nat.le_succ j
  | launched j hm hj =>
    refine h.advance ?_ (Nat.le_refl n) (fun w _ => by rw [hm]; rfl) (mainOk_of_not_joins rfl)
    exact h.launched
  | polls hm => exact h.proceeds hm rfl rfl (fun _ _ => rfl) (mainOk_of_not_joins rfl)
  | polled hm => exact h.proceeds hm rfl rfl (fun _ _ => rfl) (mainOk_of_not_joins rfl)
  | expires hm => exact h.proceeds hm rfl rfl (fun _ hw => hw) (mainOk_of_not_joins rfl)
  | clock hm => exact h.proceeds hm rfl rfl (fun _ _ => rfl) (mainOk_of_not_joins rfl)
  | opens o g o' hm hopen => exact h.watchdog hm hopen rfl rfl (fun _ => rfl)
  | opened o g hm hopen => exact h.watchdog hm hopen rfl rfl (fun _ => rfl)
  | sleeps hm => exact h.proceeds hm rfl rfl (fun _ _ => rfl) (mainOk_of_not_joins rfl)
  | waits hm hjoined =>
    refine h.proceeds hm rfl rfl (fun _ _ => rfl) ?_
    refine ⟨fun _ j hj => ?_, ?_, ?_, ?_, ?_, ?_⟩
    · have hall := List.all_eq_true.mp hjoined j (List.mem_range.mpr hj)
      exact of_decide_eq_true hall
    all_goals simp
  | reduces hm =>
    have hall := hmain.joined (by rw [hm]; rfl)
    have hrel : s.vars.released = n := by
      rw [h.released]
      exact total_ones (fun j hj => by rw [hall j hj]; rfl)
    refine h.proceeds hm rfl rfl (fun _ _ => rfl) ?_
    refine ⟨fun _ => hall, ?_, ?_, ?_, ?_, ?_⟩
    · simp
    · intro saw hsaw
      have heq : MainPc.notes (decide (s.vars.released = n)) = .notes saw := hsaw
      rw [decide_eq_true hrel] at heq
      cases heq
      rfl
    all_goals simp
  | notes saw hm =>
    have hsaw := hmain.notes saw hm
    have hall := hmain.joined (by rw [hm]; rfl)
    rw [hsaw, if_pos rfl]
    refine h.proceeds hm rfl rfl (fun _ _ => rfl) ?_
    refine ⟨fun _ => hall, ?_, ?_, ?_, ?_, ?_⟩
    all_goals simp
  | violates hm => exact absurd hm hmain.clean
  | folds hm =>
    have hall := hmain.joined (by rw [hm]; rfl)
    have hseen := hmain.saw (Or.inl hm)
    refine h.proceeds hm rfl rfl (fun _ _ => rfl) ?_
    refine ⟨fun _ => hall, ?_, ?_, fun _ => hseen, fun _ => ?_, ?_⟩
    · simp
    · simp
    · -- the futures hold what the leaves computed
      show (maskedFold ((List.range n).map fun j => (s.value j).toUInt64)).toInt64 = fanin seed n _
      rw [fanin]
      congr 2
      refine List.map_congr_left (fun j hj => ?_)
      have hne : s.leaf j ≠ .queued := by
        rw [hall j (List.mem_range.mp hj)]
        decide
      rw [h.values j hne]
    · simp
  | records hm =>
    have hall := hmain.joined (by rw [hm]; rfl)
    have hseen := hmain.saw (Or.inr (Or.inl hm))
    have hres := hmain.result (Or.inl hm)
    refine h.proceeds hm rfl rfl (fun _ _ => rfl) ?_
    refine ⟨fun _ => hall, ?_, ?_, fun _ => hseen, fun _ => hres, fun _ => rfl⟩
    · simp
    · simp

theorem step (h : Barrier seed quantum n s) {a : Gate.Act} (hs : s.step seed quantum n a = some s') :
    Barrier seed quantum n s' := by
  cases a with
  | leaf j weak => exact h.leaf hs
  | main late => exact h.mainMove (Gate.mainStep_move hs)

/-- **Every interleaving** keeps the invariant. -/
theorem reach (hn : 0 < n) (h : Reach (Gate.step seed quantum n) Gate.init s) :
    Barrier seed quantum n s := h.inv (fun _ _ _ hb hs => hb.step hs) (barrier_init hn)

end Barrier

end

end RayX
