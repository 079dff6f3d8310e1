import RayX.Experiments.Soak
import RayX.Lib.Collect

/-!
# The linkage of the islands

`apply_capability_linkage`: every batch of a repetition needs the proof that the soak of this repetition
over four calls has given for its arm.

* `Island`, `link`   the results of one island, and the linkage over all of them;
* `proven_own`       what is proven for a repetition comes from its own islands;
* `LinkedIsland`     what an island needs to pass, and what is left as it was;
* `link_raises_iff`  the linkage raises exactly when some batch has failed in its warm-up;
* `link_spec`        **the linkage as a whole**, and that a second one changes nothing.
-/

namespace RayX
namespace Throughput
open Sys

/-! ## the records -/

/-- the `gates` of a batch: those of a batch that was evaluated, or `{"warmup": False}` -/
inductive GateDict where
  | warmup
  | evaluated (g : BatchGates)

/-- `available`: the gate `capability_proof_available`, once it is there -/
structure BatchRecord where
  arm : Arm
  metrics : Metrics
  readings : Readings
  gates : GateDict
  available : Option Bool := none
  failureClass : BatchClass
  batchPass : Bool

/-- the class of an island: one of a batch, or one of the other classes of the experiment -/
inductive IslandClass where
  | batch (c : BatchClass)
  | other (c : String)
  deriving DecidableEq

/-- `islandGates`: the gates that the linkage does not touch -/
structure Island where
  rep : Int
  c : Nat
  soaks : List SoakResult
  batches : List BatchRecord
  islandGates : List Bool
  allBatchesPassed : Bool
  peerCapabilityAvailable : Option Bool := none
  repPass : Bool
  failureClass : IslandClass

/-! ## the linkage -/

/-- `proven`: for a repetition and an arm -/
abbrev Proven := Int × Arm → Option Bool

/-- the soaks of one island -/
def proveIsland (table : Proven) (r : Island) : Proven :=
  if 4 ≤ r.c then
    r.soaks.foldl (fun table s =>
      if s.caseName = "P3b" ∧ s.capabilityRegime = true then
        Function.update table (r.rep, s.arm) (some (s.capabilityProven.getD false))
      else table) table
  else table

def proven (islands : List Island) : Proven := islands.foldl proveIsland fun _ => none

/-- `g["verifier_bounded"]` of the gates of a batch that has failed in its warm-up -/
def keyError : String := "KeyError: 'verifier_bounded'"

def linkBatch (available : Bool) (b : BatchRecord) : Except String BatchRecord :=
  match b.gates with
  | .warmup => .error keyError
  | .evaluated g =>
    let cls := classifyThroughputBatch b.arm b.metrics b.readings g available
    .ok { b with
      available := some available
      failureClass := cls
      batchPass := decide (cls = .pass) }

/-- the first batch without the proof gives its class to the island, else the first that has failed -/
def islandClass (batches : List BatchRecord) : BatchClass :=
  if batches.any fun b => b.failureClass = .peerConcurrencyCapabilityNotAvailable then
    .peerConcurrencyCapabilityNotAvailable
  else
    match batches.find? fun b => !b.batchPass with
    | some b => b.failureClass
    | none => .peerConcurrencyCapabilityNotAvailable

/-- the gates and the result of an island, from its batches -/
def Island.rate (r : Island) (batches : List BatchRecord) : Island :=
  let passed := !batches.isEmpty && batches.all BatchRecord.batchPass
  let available := batches.isEmpty || batches.all fun b => b.available == some true
  let pass := r.islandGates.all id && passed && available && r.soaks.all SoakResult.pass
  { r with
    batches := batches
    allBatchesPassed := passed
    peerCapabilityAvailable := some available
    repPass := pass
    failureClass :=
      if pass = false ∧ r.failureClass = .batch .pass then .batch (islandClass batches)
      else r.failureClass }

def linkIsland (table : Proven) (r : Island) : Except String Island :=
  (r.batches.mapM fun b => linkBatch ((table (r.rep, b.arm)).getD false) b).map r.rate

/-- `apply_capability_linkage` -/
def link (islands : List Island) : Except String (List Island) :=
  islands.mapM (linkIsland (proven islands))

/-! ## what is proven -/

variable {islands islands' : List Island} {r r' : Island} {table table' : Proven}

/-- the soaks of another repetition do not count -/
theorem proveIsland_other {k : Int} {arm : Arm} (h : r.rep ≠ k) :
    proveIsland table r (k, arm) = table (k, arm) := by
  unfold proveIsland
  split
  · have hne : ∀ a : Arm, (k, arm) ≠ (r.rep, a) := fun a he => h (Prod.mk.inj he).1.symm
    generalize r.soaks = soaks
    induction soaks generalizing table with
    | nil => rfl
    | cons s soaks ih =>
      rw [List.foldl_cons, ih]
      split
      · exact Function.update_of_ne (hne s.arm) _ _
      · rfl
  · rfl

theorem update_congr {p q : Int × Arm} {x : Option Bool} (h : table p = table' p) :
    Function.update table q x p = Function.update table' q x p := by
  by_cases hp : p = q
  · rw [hp, Function.update_self, Function.update_self]
  · rw [Function.update_of_ne hp, Function.update_of_ne hp, h]

/-- an entry of the table depends on no other entry -/
theorem proveIsland_congr {p : Int × Arm} (h : table p = table' p) :
    proveIsland table r p = proveIsland table' r p := by
  unfold proveIsland
  split
  · generalize r.soaks = soaks
    induction soaks generalizing table table' with
    | nil => exact h
    | cons s soaks ih =>
      rw [List.foldl_cons, List.foldl_cons]
      refine ih ?_
      split
      · exact update_congr h
      · exact h
  · exact h

theorem foldl_proveIsland {k : Int} {arm : Arm} (h : table (k, arm) = table' (k, arm)) :
    islands.foldl proveIsland table (k, arm) =
      (islands.filter fun r => r.rep = k).foldl proveIsland table' (k, arm) := by
  induction islands generalizing table table' with
  | nil => exact h
  | cons r islands ih =>
    by_cases hr : r.rep = k
    · rw [List.filter_cons_of_pos (by simpa using hr), List.foldl_cons, List.foldl_cons]
      exact ih (proveIsland_congr h)
    · rw [List.filter_cons_of_neg (by simpa using hr), List.foldl_cons]
      exact ih ((proveIsland_other hr).trans h)

/-- **What is proven for a repetition comes from its own islands.** -/
theorem proven_own (islands : List Island) (k : Int) (arm : Arm) :
    proven islands (k, arm) = proven (islands.filter fun r => r.rep = k) (k, arm) :=
  foldl_proveIsland rfl

/-- the linkage leaves alone what the table is made from -/
theorem proveIsland_rate (table : Proven) (r : Island) (batches : List BatchRecord) :
    proveIsland table (r.rate batches) = proveIsland table r := rfl

/-! ## one island -/

variable {b b' : BatchRecord} {proof : Bool}

/-- `b'` is the batch `b` with its gate of the capability -/
structure LinkedBatch (proof : Bool) (b b' : BatchRecord) : Prop where
  arm : b'.arm = b.arm
  gates : b'.gates = b.gates
  available : b'.available = some proof
  passes : b'.batchPass = true ↔ b'.failureClass = .pass
  clean : b'.batchPass = true ↔ ∃ g, b.gates = .evaluated g ∧ g.all = true ∧ proof = true
  again : linkBatch proof b' = .ok b'

theorem linkBatch_linked (h : linkBatch proof b = .ok b') : LinkedBatch proof b b' := by
  unfold linkBatch at h
  split at h
  · cases h
  · rename_i g hg
    cases h
    refine { arm := rfl, gates := rfl, available := rfl, passes := decide_eq_true_iff, clean := ?_,
             again := ?_ }
    · dsimp only
      rw [decide_eq_true_iff, classify_pass_iff, hg]
      exact ⟨fun hp => ⟨g, rfl, hp⟩, fun ⟨g', he, hp⟩ => by cases he; exact hp⟩
    · simp only [linkBatch, hg]

theorem linkBatch_error {e : String} (h : linkBatch proof b = .error e) :
    b.gates = .warmup ∧ e = keyError := by
  unfold linkBatch at h
  split at h
  · rename_i hg
    cases h
    exact ⟨hg, rfl⟩
  · cases h

theorem linkBatch_warmup (h : b.gates = .warmup) : linkBatch proof b = .error keyError := by
  unfold linkBatch
  rw [h]

/-- the class that a failed batch gives to its island is not `pass` -/
theorem islandClass_ne {batches : List BatchRecord}
    (h : ∀ b ∈ batches, b.batchPass = true ↔ b.failureClass = .pass) :
    islandClass batches ≠ .pass := by
  unfold islandClass
  split
  · exact nofun
  · split
    · rename_i b hb
      intro hc
      have hpass := (h b (List.mem_of_find?_eq_some hb)).mpr hc
      have hfail := List.find?_some hb
      rw [hpass] at hfail
      cases hfail
    · exact nofun

/-- `r'` is the island `r` after the linkage, where `table` is what is proven -/
structure LinkedIsland (table : Proven) (r r' : Island) : Prop where
  rep : r'.rep = r.rep
  soaks : r'.soaks = r.soaks
  batches : List.Forall₂ (fun b b' => LinkedBatch ((table (r.rep, b.arm)).getD false) b b')
    r.batches r'.batches
  passes : r'.repPass = true ↔ (∀ x ∈ r.islandGates, x = true) ∧ r.batches ≠ [] ∧
    (∀ b ∈ r.batches, ∃ g, b.gates = .evaluated g ∧ g.all = true ∧ table (r.rep, b.arm) = some true) ∧
    ∀ s ∈ r.soaks, s.pass = true
  named : r'.repPass = false → r'.failureClass ≠ .batch .pass
  kept : r'.repPass = true → r'.failureClass = r.failureClass

theorem getD_false_true {x : Option Bool} : x.getD false = true ↔ x = some true := by
  cases x with
  | none => simp
  | some b => simp

theorem linkIsland_ok (h : linkIsland table r = .ok r') :
    ∃ batches, (r.batches.mapM fun b => linkBatch ((table (r.rep, b.arm)).getD false) b) = .ok batches ∧
      r' = r.rate batches := by
  unfold linkIsland at h
  cases hm : (r.batches.mapM fun b => linkBatch ((table (r.rep, b.arm)).getD false) b) with
  | error e =>
    rw [hm] at h
    cases h
  | ok batches =>
    rw [hm] at h
    cases h
    exact ⟨batches, rfl, rfl⟩

theorem linkIsland_linked (h : linkIsland table r = .ok r') : LinkedIsland table r r' := by
  obtain ⟨batches, hm, rfl⟩ := linkIsland_ok h
  have hall : List.Forall₂ (fun b b' => LinkedBatch ((table (r.rep, b.arm)).getD false) b b')
      r.batches batches := (mapM_forall₂.mp hm).imp fun _ _ hb => linkBatch_linked hb
  have hnil : batches = [] ↔ r.batches = [] := by
    rw [← List.length_eq_zero_iff, ← hall.length_eq, List.length_eq_zero_iff]
  have hclean : (∀ b ∈ r.batches, ∃ g, b.gates = .evaluated g ∧ g.all = true ∧
      table (r.rep, b.arm) = some true) ↔ ∀ b ∈ batches, b.batchPass = true := by
    refine forall₂_mem hall fun b b' hb => ?_
    rw [hb.clean, getD_false_true]
  have havail : (∀ b ∈ batches, b.batchPass = true) →
      ∀ b ∈ batches, (b.available == some true) = true := by
    intro hp
    have hproven : ∀ b ∈ r.batches, table (r.rep, b.arm) = some true := by
      intro b hb
      obtain ⟨_, _, _, ht⟩ := hclean.mpr hp b hb
      exact ht
    refine (forall₂_mem hall fun b b' hb => ?_).mp hproven
    rw [hb.available, beq_iff_eq, Option.some_inj, getD_false_true]
  have hpass : (r.rate batches).repPass = true ↔ (∀ x ∈ r.islandGates, x = true) ∧ r.batches ≠ [] ∧
      (∀ b ∈ batches, b.batchPass = true) ∧ ∀ s ∈ r.soaks, s.pass = true := by
    show (r.islandGates.all id && (!batches.isEmpty && batches.all BatchRecord.batchPass) &&
      (batches.isEmpty || batches.all fun b => b.available == some true) &&
      r.soaks.all SoakResult.pass) = true ↔ _
    simp only [Bool.and_eq_true, Bool.or_eq_true, List.all_eq_true, id_eq, Bool.not_eq_true',
      List.isEmpty_eq_false_iff, List.isEmpty_iff]
    rw [ne_eq, hnil]
    exact ⟨fun ⟨⟨⟨hi, hne, hb⟩, _⟩, hs⟩ => ⟨hi, hne, hb, hs⟩,
      fun ⟨hi, hne, hb, hs⟩ => ⟨⟨⟨hi, hne, hb⟩, Or.inr (havail hb)⟩, hs⟩⟩
  have hne : islandClass batches ≠ .pass := by
    refine islandClass_ne ((forall₂_mem hall fun _ _ hb => ?_).mp fun _ _ => trivial)
    exact ⟨fun _ => hb.passes, fun _ => trivial⟩
  refine { rep := rfl, soaks := rfl, batches := hall, passes := ?_, named := ?_, kept := ?_ }
  · rw [hclean]
    exact hpass
  · intro hp
    have hcls : (r.rate batches).failureClass =
        if (r.rate batches).repPass = false ∧ r.failureClass = .batch .pass then
          .batch (islandClass batches) else r.failureClass := rfl
    rw [hcls, hp]
    split
    · exact fun he => hne (IslandClass.batch.inj he)
    · rename_i hno
      exact fun he => hno ⟨rfl, he⟩
  · intro hp
    have hcls : (r.rate batches).failureClass =
        if (r.rate batches).repPass = false ∧ r.failureClass = .batch .pass then
          .batch (islandClass batches) else r.failureClass := rfl
    rw [hcls, hp, if_neg (fun he => Bool.noConfusion he.1)]

theorem linkIsland_error {e : String} (h : linkIsland table r = .error e) :
    e = keyError ∧ ∃ b ∈ r.batches, b.gates = .warmup := by
  unfold linkIsland at h
  cases hm : (r.batches.mapM fun b => linkBatch ((table (r.rep, b.arm)).getD false) b) with
  | ok batches =>
    rw [hm] at h
    cases h
  | error e' =>
    rw [hm] at h
    cases h
    obtain ⟨b, hb, he⟩ := mapM_error hm
    obtain ⟨hg, he⟩ := linkBatch_error he
    exact ⟨he, b, hb, hg⟩

theorem LinkedIsland.evaluated (h : LinkedIsland table r r') : ∀ b ∈ r.batches, b.gates ≠ .warmup := by
  refine (forall₂_mem h.batches fun b b' hb => ?_).mpr fun _ _ => trivial
  refine ⟨fun _ => trivial, fun _ hw => ?_⟩
  have hagain := hb.again
  rw [linkBatch_warmup (hb.gates.trans hw)] at hagain
  cases hagain

/-- a second linkage of an island changes nothing -/
theorem LinkedIsland.again (h : linkIsland table r = .ok r') : linkIsland table r' = .ok r' := by
  have hl := linkIsland_linked h
  have hm : (r'.batches.mapM fun b => linkBatch ((table (r'.rep, b.arm)).getD false) b) =
      .ok r'.batches := by
    rw [mapM_forall₂, List.forall₂_same, hl.rep]
    refine (forall₂_mem hl.batches fun b b' hb => ?_).mp fun _ _ => trivial
    rw [hb.arm]
    exact ⟨fun _ => hb.again, fun _ => trivial⟩
  have hrate : r'.rate r'.batches = r' := by
    obtain ⟨batches, -, rfl⟩ := linkIsland_ok h
    have hcls : (if (r.rate batches).repPass = false ∧ (r.rate batches).failureClass = .batch .pass then
        .batch (islandClass batches) else (r.rate batches).failureClass) =
          (r.rate batches).failureClass :=
      if_neg fun hp => hl.named hp.1 hp.2
    show { r.rate batches with failureClass := if (r.rate batches).repPass = false ∧
        (r.rate batches).failureClass = .batch .pass then .batch (islandClass batches)
        else (r.rate batches).failureClass } = r.rate batches
    rw [hcls]
  unfold linkIsland
  rw [hm]
  exact congrArg Except.ok hrate

/-! ## all islands -/

theorem proven_linked {out : List Island}
    (h : List.Forall₂ (fun r r' => linkIsland table r = .ok r') islands out) :
    ∀ start : Proven, out.foldl proveIsland start = islands.foldl proveIsland start := by
  induction h with
  | nil => exact fun _ => rfl
  | @cons r r' islands out hr _ ih =>
    intro start
    have hsame : proveIsland start r' = proveIsland start r := by
      obtain ⟨batches, -, rfl⟩ := linkIsland_ok hr
      exact proveIsland_rate start r batches
    rw [List.foldl_cons, List.foldl_cons, hsame, ih]

/-- what is proven, where an entry is looked up among the islands of its own repetition -/
def ownProven (islands : List Island) : Proven :=
  fun p => proven (islands.filter fun r => r.rep = p.1) p

theorem ownProven_eq (islands : List Island) : ownProven islands = proven islands :=
  funext fun p => (proven_own islands p.1 p.2).symm

theorem link_error {e : String} (h : link islands = .error e) :
    e = keyError ∧ ∃ r ∈ islands, ∃ b ∈ r.batches, b.gates = .warmup := by
  obtain ⟨r, hr, he⟩ := mapM_error h
  obtain ⟨he, hb⟩ := linkIsland_error he
  exact ⟨he, r, hr, hb⟩

theorem link_linked {out : List Island} (h : link islands = .ok out) :
    List.Forall₂ (LinkedIsland (ownProven islands)) islands out := by
  rw [ownProven_eq]
  exact (mapM_forall₂.mp h).imp fun _ _ hr => linkIsland_linked hr

theorem link_raises_iff (islands : List Island) :
    (∃ e, link islands = .error e) ↔ ∃ r ∈ islands, ∃ b ∈ r.batches, b.gates = .warmup := by
  constructor
  · rintro ⟨e, he⟩
    exact (link_error he).2
  · rintro ⟨r, hr, b, hb, hg⟩
    cases hl : link islands with
    | error e => exact ⟨e, rfl⟩
    | ok out =>
      obtain ⟨r', _, hr'⟩ := (mapM_mem hl).1 r hr
      exact absurd hg ((linkIsland_linked hr').evaluated b hb)

theorem link_again {out : List Island} (h : link islands = .ok out) : link out = .ok out := by
  have hall := mapM_forall₂.mp h
  have htable : proven out = proven islands := proven_linked hall _
  show out.mapM (linkIsland (proven out)) = .ok out
  rw [htable, mapM_forall₂, List.forall₂_same]
  refine (forall₂_mem hall fun r r' hr => ?_).mp fun _ _ => trivial
  exact ⟨fun _ => LinkedIsland.again hr, fun _ => trivial⟩

/-- **The linkage as a whole.** It raises exactly when some batch has failed in its warm-up; otherwise
every island is judged with what its own repetition has proven, and a second linkage changes nothing. -/
theorem link_spec (islands : List Island) :
    ((∃ e, link islands = .error e) ↔ ∃ r ∈ islands, ∃ b ∈ r.batches, b.gates = .warmup) ∧
    (∀ e, link islands = .error e → e = keyError) ∧
    ∀ out, link islands = .ok out →
      List.Forall₂ (LinkedIsland (ownProven islands)) islands out ∧ link out = .ok out :=
  ⟨link_raises_iff islands, fun _ h => (link_error h).1, fun _ h => ⟨link_linked h, link_again h⟩⟩

end Throughput
end RayX
