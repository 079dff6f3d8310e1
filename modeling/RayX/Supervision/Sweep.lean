import Mathlib.Data.Option.Basic

/-!
# The final sweep for orphans

At the end of a run the controller looks up each process that it owns, by two runs of `ps`, and scans for
processes of its run directory.  Each slice has its own copy of the code.

* `Swept`                  an owned record, what holds its pid during the lookup, and what fails;
* `Slice1`, `Slice3`       the code of slice 1, and that of slices 3 and 4, which differ in their arms;
* `SweptClosed`            the gates are true only if nothing failed and nothing is left;
* `Slice1.Caught`, `Slice3.Caught`   the records that turn a gate off;
* `sweep_closed_iff`       **when the sweeps fail closed**.
-/

namespace RayX

namespace Supervision

/-- a running process as `ps` prints it, which prints no blank field -/
structure Proc where
  start : String
  command : String
  start_ne : start ≠ ""
  command_ne : command ≠ ""

/-- a finished call of `subprocess.run`; `stdout` is stripped -/
inductive PsRun where
  | raised (timeout : Bool)
  | exited (returncode : Int) (stdout : String)

/-- how a run of `ps` fails -/
inductive PsFailure where
  | raised (timeout : Bool)
  | exited (returncode : Int) (failed : returncode ≠ 0) (stdout : String)

def PsFailure.isRaised : PsFailure → Bool
  | .raised _ => true
  | .exited .. => false

/-- `ps -o field= -p pid`, where `shown` is the field of the process with the pid -/
def ps (fails : Option PsFailure) (shown : Option String) : PsRun :=
  match fails, shown with
  | some (.raised timeout), _ => .raised timeout
  | some (.exited rc _ out), _ => .exited rc out
  | none, some t => .exited 0 t
  | none, none => .exited 1 ""

structure OwnedRecord where
  label : String
  pid : Option Int
  node : Option String
  lstart : Option String
  command : Option String

structure Identity where
  lstart : String
  command : Option String
  deriving DecidableEq

/-- the lookup of a record: the process with its pid at the first run of `ps`, the one at the second, and
what fails.  `old`: a process with the recorded start time is not new at the second run. -/
structure Swept where
  owned : OwnedRecord
  remote : Bool
  holder : Option Proc
  later : Option Proc
  lstartFails : Option PsFailure
  commandFails : Option PsFailure
  old : ∀ p, later = some p → owned.lstart = some p.start → ∃ h, holder = some h ∧ h.start = p.start

def Swept.lstartPs (l : Swept) : PsRun := ps l.lstartFails (l.holder.map Proc.start)

def Swept.commandPs (l : Swept) : PsRun := ps l.commandFails (l.later.map Proc.command)

/-! ## the lookups -/

/-- `_sh` -/
def sh : PsRun → Int × String
  | .raised timeout => (if timeout then 124 else 1, "")
  | .exited rc out => (rc, out)

/-- `proc_identity` of a cross-node plan, for a node that is not the controller's -/
def procIdentityRemote (pid : Option Int) (ls cm : PsRun) : Option Identity :=
  match pid with
  | none => none
  | some _ =>
    if (sh ls).1 ≠ 0 ∨ (sh ls).2 = "" then none
    else some ⟨(sh ls).2, if (sh cm).1 = 0 then some (sh cm).2 else none⟩

namespace Slice1

def psField : PsRun → Option String
  | .raised _ => none
  | .exited rc val => if rc ≠ 0 then none else if val = "" then none else some val

def procIdentityLocal (pid : Option Int) (ls cm : PsRun) : Option Identity :=
  match pid with
  | none => none
  | some _ =>
    match psField ls with
    | none => none
    | some ls => some ⟨ls, psField cm⟩

def lookup (l : Swept) : Option Identity :=
  if l.remote then procIdentityRemote l.owned.pid l.lstartPs l.commandPs
  else procIdentityLocal l.owned.pid l.lstartPs l.commandPs

end Slice1

namespace Slice3

/-- an exception of either run is swallowed for the whole lookup -/
def procIdentityLocal (pid : Option Int) (ls cm : PsRun) : Option Identity :=
  match pid, ls with
  | none, _ => none
  | some _, .raised _ => none
  | some _, .exited rc ls =>
    if rc ≠ 0 ∨ ls = "" then none
    else match cm with
      | .raised _ => none
      | .exited rc cm => some ⟨ls, if rc = 0 then some cm else none⟩

def lookup (l : Swept) : Option Identity :=
  if l.remote then procIdentityRemote l.owned.pid l.lstartPs l.commandPs
  else procIdentityLocal l.owned.pid l.lstartPs l.commandPs

end Slice3

/-! ## the scan -/

/-- `pgrep -f runs_dir`; `pids` is the split output -/
inductive PgrepRun where
  | raised
  | exited (returncode : Int) (pids : List String)

def rundirScopedOrphans (me : String) : PgrepRun → Option (List String)
  | .raised => none
  | .exited rc pids =>
    if rc ≠ 0 ∧ rc ≠ 1 then none else some (pids.filter fun p => p ≠ "" ∧ p ≠ me)

/-! ## the records and the gates -/

structure OwnedProcessCheck where
  allOwnedGone : Bool
  covers : Bool

structure Final where
  cleanupRan : Bool
  ownedProcessCheck : Option OwnedProcessCheck
  rundirScopedOrphans : Option (List String)

structure FinalGates where
  ownedProcessesGone : Bool
  ownedRecordsCover : Bool
  noRundirScopedProcesses : Bool
  cleanupRan : Bool

/-- the gates that concern processes -/
def FinalGates.processes (g : FinalGates) : Bool :=
  g.ownedProcessesGone && g.ownedRecordsCover && g.noRundirScopedProcesses

namespace Slice1

inductive SweepStatus where
  | noPidRecorded
  | gone
  | aliveIdentityUnverified
  | aliveOurs
  | pidReusedNotOurs

def SweepStatus.isGone : SweepStatus → Bool
  | .gone | .pidReusedNotOurs => true
  | _ => false

def status (owned : OwnedRecord) (cur : Option Identity) : SweepStatus :=
  if owned.pid = none then .noPidRecorded
  else match cur with
    | none => .gone
    | some cur =>
      if owned.lstart = none ∨ owned.command = none then .aliveIdentityUnverified
      else if some cur.lstart = owned.lstart ∧ cur.command = owned.command then .aliveOurs
      else .pidReusedNotOurs

def evaluateOwnedProcesses (ls : List Swept) : Bool × List (OwnedRecord × SweepStatus) :=
  ls.foldl (fun r l =>
    (r.1 && (status l.owned (lookup l)).isGone, r.2 ++ [(l.owned, status l.owned (lookup l))]))
    (true, [])

def recordsCoverEpochs (owned : List OwnedRecord) (tags : List String) : Bool :=
  tags.all fun tag =>
    decide (3 ≤ (owned.filter fun r => (tag ++ "_").toList.isPrefixOf r.label.toList).length)

def evalFinal (fin : Final) : FinalGates where
  ownedProcessesGone := match fin.ownedProcessCheck with
    | some oc => oc.allOwnedGone
    | none => false
  ownedRecordsCover := match fin.ownedProcessCheck with
    | some oc => oc.covers
    | none => false
  noRundirScopedProcesses := fin.rundirScopedOrphans == some []
  cleanupRan := fin.cleanupRan

/-- `tags`: the epochs of the run -/
def finalSweep (tags : List String) (me : String) (scan : PgrepRun) (ls : List Swept) : Final where
  cleanupRan := true
  ownedProcessCheck := some {
    allOwnedGone := (evaluateOwnedProcesses ls).1
    covers := recordsCoverEpochs (ls.map Swept.owned) tags }
  rundirScopedOrphans := Supervision.rundirScopedOrphans me scan

end Slice1

namespace Slice3

def stillAliveOurs (owned : OwnedRecord) : Option Identity → Bool
  | none => false
  | some now => some now.lstart == owned.lstart && now.command == owned.command

def evaluateOwnedProcesses (ls : List Swept) : Bool × List (OwnedRecord × Bool) :=
  ls.foldl (fun r l =>
    (r.1 && !stillAliveOurs l.owned (lookup l), r.2 ++ [(l.owned, stillAliveOurs l.owned (lookup l))]))
    (true, [])

def recordsCoverIsland (arms : List String) (owned : List OwnedRecord) : Bool :=
  arms.all fun arm =>
    [arm ++ "_island_root", arm ++ "_island_actor_a", arm ++ "_island_actor_b"].all fun label =>
      (owned.map OwnedRecord.label).contains label

/-- no scan counts as an empty one -/
def evalFinal (fin : Final) : FinalGates where
  ownedProcessesGone := match fin.ownedProcessCheck with
    | some chk => chk.allOwnedGone
    | none => false
  ownedRecordsCover := match fin.ownedProcessCheck with
    | some chk => chk.covers
    | none => false
  noRundirScopedProcesses := fin.rundirScopedOrphans.getD [] == []
  cleanupRan := fin.cleanupRan

def finalSweep (arms : List String) (me : String) (scan : PgrepRun) (ls : List Swept) : Final where
  cleanupRan := true
  ownedProcessCheck := some {
    allOwnedGone := (evaluateOwnedProcesses ls).1
    covers := recordsCoverIsland arms (ls.map Swept.owned) }
  rundirScopedOrphans := Supervision.rundirScopedOrphans me scan

/-- `ARMS` of slice 3 -/
def arms : List String := ["graceful", "loss"]

end Slice3

/-- `ARMS` of slice 4 -/
def Slice4.arms : List String := ["normal", "loss"]

/-! ## failing closed -/

/-- the second run is made where the first one shows a process -/
def Swept.asks (l : Swept) : Bool := l.owned.pid.isSome && l.lstartFails.isNone && l.holder.isSome

/-- the process with the pid when the lookup is over -/
def Swept.last (l : Swept) : Option Proc := if l.asks then l.later else l.holder

/-- no run of `ps` that the lookup makes fails -/
def Swept.Succeeds (l : Swept) : Prop :=
  l.owned.pid.isSome → l.lstartFails = none ∧ (l.asks → l.commandFails = none)

/-- a process with the recorded pid and start time -/
def Swept.Runs (l : Swept) : Prop :=
  l.owned.pid.isSome ∧ ∃ p, l.last = some p ∧ l.owned.lstart = some p.start

/-- the pid is in use, and the pid or the start identity of the record is missing -/
def Swept.Unknown (l : Swept) : Prop :=
  (l.owned.pid = none ∨ l.owned.lstart = none ∨ l.owned.command = none) ∧ l.last.isSome

/-- the scan succeeds, and finds only the controller -/
def PgrepRun.Clean (me : String) (scan : PgrepRun) : Prop :=
  ∃ rc pids, scan = .exited rc pids ∧ (rc = 0 ∨ rc = 1) ∧ ∀ p ∈ pids, p = "" ∨ p = me

/-- the scan succeeds, and finds another process -/
def PgrepRun.Finds (me : String) (scan : PgrepRun) : Prop :=
  ∃ rc pids, scan = .exited rc pids ∧ (rc = 0 ∨ rc = 1) ∧ ∃ p ∈ pids, p ≠ "" ∧ p ≠ me

/-- the gates are true only if every lookup and the scan succeed, the scan finds nothing, no recorded
process runs, and no pid of an unknown process is in use -/
def SweptClosed (gates : FinalGates) (me : String) (scan : PgrepRun) (ls : List Swept) : Prop :=
  gates.processes = true →
    (∀ l ∈ ls, l.Succeeds) ∧ scan.Clean me ∧ ∀ l ∈ ls, ¬ l.Runs ∧ ¬ l.Unknown

/-- a process that has changed its command since it was recorded -/
def Swept.Renamed (l : Swept) : Prop :=
  ∃ p, l.later = some p ∧ l.owned.lstart = some p.start ∧ l.owned.command ≠ some p.command

/-- the record has no pid; or a process has its pid and the record no full identity, or the identity of
that process -/
def Slice1.Caught (l : Swept) : Prop :=
  l.owned.pid = none ∨ l.lstartFails = none ∧ ∃ h, l.holder = some h ∧
    (l.owned.lstart = none ∨ l.owned.command = none ∨
      l.owned.lstart = some h.start ∧ l.commandFails = none ∧
        ∃ p, l.later = some p ∧ l.owned.command = some p.command)

/-- a process has the pid and the start time of the record, and its command; no command is shown where the
process is gone by then or the second run exits with an error -/
def Slice3.Caught (l : Swept) : Prop :=
  l.owned.pid.isSome ∧ l.lstartFails = none ∧ ∃ h, l.holder = some h ∧ l.owned.lstart = some h.start ∧
    (l.commandFails = none ∧ l.owned.command = l.later.map Proc.command ∨
      (∃ f, l.commandFails = some f ∧ (l.remote = true ∨ f.isRaised = false)) ∧
        l.owned.command = none)

/-! ## what a lookup gives -/

/-- what the runs of `ps` show of a process, no command where the second fails -/
def Swept.seen (l : Swept) : Option Identity :=
  if l.owned.pid.isSome ∧ l.lstartFails = none then
    l.holder.map fun h =>
      ⟨h.start, if l.commandFails = none then l.later.map Proc.command else none⟩
  else none

/-- what a run shows, nothing where it fails -/
def shows (fails : Option PsFailure) (shown : Option String) : Option String :=
  if fails = none then shown else none

theorem sh_ps (fails : Option PsFailure) (shown : Option String) :
    (if (sh (ps fails shown)).1 = 0 then some (sh (ps fails shown)).2 else none) =
      shows fails shown := by
  cases fails with
  | some f =>
    cases f with
    | raised timeout => cases timeout <;> rfl
    | exited rc failed out => exact if_neg failed
  | none => cases shown <;> rfl

theorem Slice1.psField_ps (fails : Option PsFailure) {shown : Option String}
    (hne : shown ≠ some "") : psField (ps fails shown) = shows fails shown := by
  cases fails with
  | some f =>
    cases f with
    | raised timeout => rfl
    | exited rc failed out => exact if_pos failed
  | none =>
    cases shown with
    | none => rfl
    | some t => exact if_neg fun ht => hne (congrArg some ht)

theorem start_shown (o : Option Proc) : o.map Proc.start ≠ some "" := by
  intro h
  obtain ⟨p, _, hp⟩ := Option.map_eq_some_iff.mp h
  exact p.start_ne hp

theorem command_shown (o : Option Proc) : o.map Proc.command ≠ some "" := by
  intro h
  obtain ⟨p, _, hp⟩ := Option.map_eq_some_iff.mp h
  exact p.command_ne hp

/-- a lookup, by what its two runs show -/
theorem Swept.seen_eq (l : Swept) :
    l.seen = match l.owned.pid, shows l.lstartFails (l.holder.map Proc.start) with
    | some _, some ls => some ⟨ls, shows l.commandFails (l.later.map Proc.command)⟩
    | _, _ => none := by
  unfold seen shows
  cases l.owned.pid with
  | none => rfl
  | some pid =>
    cases l.lstartFails with
    | some f => rfl
    | none => cases l.holder <;> rfl

theorem procIdentityRemote_eq (l : Swept) :
    procIdentityRemote l.owned.pid l.lstartPs l.commandPs = l.seen := by
  have hls := sh_ps l.lstartFails (l.holder.map Proc.start)
  have hcm := sh_ps l.commandFails (l.later.map Proc.command)
  rw [Swept.seen_eq, ← hcm]
  unfold procIdentityRemote
  cases l.owned.pid with
  | none => rfl
  | some pid =>
    by_cases h0 : (sh l.lstartPs).1 = 0
    · have hshows : shows l.lstartFails (l.holder.map Proc.start) = some (sh l.lstartPs).2 :=
        hls.symm.trans (if_pos h0)
      have hne : (sh l.lstartPs).2 ≠ "" := by
        intro hblank
        rw [hblank] at hshows
        unfold shows at hshows
        split at hshows
        · exact start_shown _ hshows
        · cases hshows
      rw [hshows]
      exact if_neg (not_or.mpr ⟨not_not.mpr h0, hne⟩)
    · have hshows : shows l.lstartFails (l.holder.map Proc.start) = none := hls.symm.trans (if_neg h0)
      rw [hshows]
      exact if_pos (.inl h0)

theorem Slice1.lookup_eq (l : Swept) : lookup l = l.seen := by
  unfold lookup
  split
  · exact procIdentityRemote_eq l
  · rw [Swept.seen_eq]
    unfold procIdentityLocal
    rw [Swept.lstartPs, psField_ps _ (start_shown _), Swept.commandPs, psField_ps _ (command_shown _)]
    cases l.owned.pid with
    | none => rfl
    | some pid => cases shows l.lstartFails (l.holder.map Proc.start) <;> rfl

/-- the second run is local and raises -/
def Swept.drops (l : Swept) : Bool := !l.remote && l.commandFails.any PsFailure.isRaised

/-- where nothing is raised, the local lookup is that of a remote node -/
theorem Slice3.procIdentityLocal_eq (pid : Option Int) (ls cm : PsRun)
    (hcm : ∀ timeout, cm ≠ .raised timeout) :
    procIdentityLocal pid ls cm = procIdentityRemote pid ls cm := by
  cases pid with
  | none => rfl
  | some pid =>
    cases ls with
    | raised timeout => cases timeout <;> rfl
    | exited rc out =>
      cases cm with
      | raised timeout => exact absurd rfl (hcm timeout)
      | exited rc' out' => rfl

theorem Slice3.lookup_eq (l : Swept) : lookup l = if l.drops then none else l.seen := by
  unfold lookup Swept.drops
  cases l.remote with
  | true => exact procIdentityRemote_eq l
  | false =>
    cases hf : l.commandFails with
    | none =>
      rw [← procIdentityRemote_eq]
      refine procIdentityLocal_eq _ _ _ fun timeout h => ?_
      unfold Swept.commandPs at h
      rw [hf] at h
      cases hl : l.later.map Proc.command <;> rw [hl] at h <;> cases h
    | some f =>
      cases f with
      | exited rc failed out =>
        rw [← procIdentityRemote_eq]
        refine procIdentityLocal_eq _ _ _ fun timeout h => ?_
        unfold Swept.commandPs at h
        rw [hf] at h
        cases h
      | raised timeout =>
        have hcm : l.commandPs = .raised timeout := by
          unfold Swept.commandPs
          rw [hf]
          rfl
        show procIdentityLocal l.owned.pid l.lstartPs l.commandPs = none
        rw [hcm]
        unfold procIdentityLocal
        split
        · rfl
        · rfl
        · split <;> rfl

/-! ## the gates -/

theorem evaluate_all {α β : Type} (ls : List α) (gone : α → Bool) (detail : α → β) (b : Bool)
    (details : List β) :
    (ls.foldl (fun r l => (r.1 && gone l, r.2 ++ [detail l])) (b, details)).1 = (b && ls.all gone) := by
  induction ls generalizing b details with
  | nil => exact (Bool.and_true b).symm
  | cons l ls ih => rw [List.foldl_cons, ih, List.all_cons, Bool.and_assoc]

theorem Swept.seen_some {l : Swept} {cur : Identity} : l.seen = some cur ↔
    l.owned.pid.isSome ∧ l.lstartFails = none ∧ ∃ h, l.holder = some h ∧
      cur = ⟨h.start, if l.commandFails = none then l.later.map Proc.command else none⟩ := by
  unfold seen
  constructor
  · intro h
    split at h
    · rename_i hcond
      obtain ⟨p, hp, rfl⟩ := Option.map_eq_some_iff.mp h
      exact ⟨hcond.1, hcond.2, p, hp, rfl⟩
    · cases h
  · rintro ⟨hpid, hfail, p, hp, rfl⟩
    rw [if_pos ⟨hpid, hfail⟩, hp]
    rfl

theorem Slice1.status_gone (owned : OwnedRecord) (cur : Option Identity) :
    (status owned cur).isGone = true ↔ ¬ (owned.pid = none ∨ ∃ c, cur = some c ∧
      (owned.lstart = none ∨ owned.command = none ∨
        some c.lstart = owned.lstart ∧ c.command = owned.command)) := by
  unfold status
  by_cases hpid : owned.pid = none
  · simp [hpid, SweepStatus.isGone]
  · cases cur with
    | none => simp [hpid, SweepStatus.isGone]
    | some c =>
      by_cases hident : owned.lstart = none ∨ owned.command = none
      · rcases hident with h | h <;> simp [hpid, h, SweepStatus.isGone]
      · obtain ⟨hl, hc⟩ := not_or.mp hident
        by_cases hours : some c.lstart = owned.lstart ∧ c.command = owned.command
        · simp [hpid, hl, hc, hours, SweepStatus.isGone]
        · simp [hpid, hl, hc, hours, SweepStatus.isGone]

/-- the command that is seen, where there is one to compare with -/
theorem Swept.command_seen (l : Swept) {c : Option String} (hc : c ≠ none) :
    (if l.commandFails = none then l.later.map Proc.command else none) = c ↔
      l.commandFails = none ∧ ∃ p, l.later = some p ∧ c = some p.command := by
  by_cases hf : l.commandFails = none
  · rw [if_pos hf]
    constructor
    · rintro rfl
      cases hp : l.later with
      | none =>
        rw [hp] at hc
        exact absurd rfl hc
      | some p => exact ⟨hf, p, rfl, rfl⟩
    · rintro ⟨_, p, hp, rfl⟩
      rw [hp]
      rfl
  · rw [if_neg hf]
    exact ⟨fun h => absurd h.symm hc, fun h => absurd h.1 hf⟩

theorem Slice1.isGone_iff (l : Swept) :
    (status l.owned (lookup l)).isGone = true ↔ ¬ Caught l := by
  rw [lookup_eq, status_gone, not_iff_not]
  unfold Caught
  by_cases hpid : l.owned.pid = none
  · exact iff_of_true (.inl hpid) (.inl hpid)
  · rw [or_iff_right hpid, or_iff_right hpid]
    constructor
    · rintro ⟨cur, hseen, hcur⟩
      obtain ⟨_, hfail, h, hh, rfl⟩ := Swept.seen_some.mp hseen
      refine ⟨hfail, h, hh, ?_⟩
      by_cases hc : l.owned.command = none
      · exact .inr (.inl hc)
      · rcases hcur with hl | hc' | ⟨hstart, hcommand⟩
        · exact .inl hl
        · exact .inr (.inl hc')
        · exact .inr (.inr ⟨hstart.symm, (l.command_seen hc).mp hcommand⟩)
    · rintro ⟨hfail, h, hh, hcur⟩
      refine ⟨_, Swept.seen_some.mpr ⟨Option.isSome_iff_ne_none.mpr hpid, hfail, h, hh, rfl⟩, ?_⟩
      rcases hcur with hl | hc | ⟨hstart, hf, p, hp, hcommand⟩
      · exact .inl hl
      · exact .inr (.inl hc)
      · refine .inr (.inr ⟨hstart.symm, (l.command_seen ?_).mpr ⟨hf, p, hp, hcommand⟩⟩)
        rw [hcommand]
        exact Option.some_ne_none _

theorem Swept.drops_iff {l : Swept} : l.drops = true ↔
    l.remote = false ∧ ∃ f, l.commandFails = some f ∧ f.isRaised = true := by
  unfold drops
  rw [Bool.and_eq_true, Bool.not_eq_true']
  cases l.commandFails <;> simp

theorem Slice3.Caught.kept {l : Swept} (h : Caught l) : ¬ l.drops = true := by
  obtain ⟨_, _, _, _, _, hcommand⟩ := h
  rw [Swept.drops_iff]
  rintro ⟨hr, f, hf, hraised⟩
  rcases hcommand with ⟨hnone, _⟩ | ⟨⟨g, hg, hremote | hexited⟩, _⟩
  · rw [hnone] at hf
    cases hf
  · rw [hr] at hremote
    cases hremote
  · cases hf.symm.trans hg
    rw [hraised] at hexited
    cases hexited

theorem Slice3.ours_iff (l : Swept) :
    stillAliveOurs l.owned (lookup l) = true ↔ Caught l := by
  rw [lookup_eq]
  unfold Caught
  constructor
  · intro h
    split at h
    · cases h
    · rename_i hdrops
      cases hseen : l.seen with
      | none =>
        rw [hseen] at h
        cases h
      | some cur =>
        obtain ⟨hpid, hfail, p, hp, rfl⟩ := Swept.seen_some.mp hseen
        rw [hseen, stillAliveOurs, Bool.and_eq_true, beq_iff_eq, beq_iff_eq] at h
        obtain ⟨hstart, hcommand⟩ := h
        refine ⟨hpid, hfail, p, hp, hstart.symm, ?_⟩
        dsimp only at hcommand
        split at hcommand
        · rename_i hf
          exact .inl ⟨hf, hcommand.symm⟩
        · rename_i hf
          obtain ⟨f, hf⟩ := Option.ne_none_iff_exists'.mp hf
          refine .inr ⟨⟨f, hf, ?_⟩, hcommand.symm⟩
          cases hr : l.remote with
          | true => exact .inl rfl
          | false =>
            refine .inr (Bool.eq_false_iff.mpr fun hraised => hdrops ?_)
            exact Swept.drops_iff.mpr ⟨hr, f, hf, hraised⟩
  · rintro ⟨hpid, hfail, p, hp, hstart, hcommand⟩
    have hkept : ¬ l.drops = true := Slice3.Caught.kept ⟨hpid, hfail, p, hp, hstart, hcommand⟩
    rw [if_neg hkept, Swept.seen_some.mpr ⟨hpid, hfail, p, hp, rfl⟩, stillAliveOurs,
      Bool.and_eq_true, beq_iff_eq, beq_iff_eq]
    refine ⟨hstart.symm, ?_⟩
    dsimp only
    rcases hcommand with ⟨hnone, hc⟩ | ⟨⟨f, hf, _⟩, hc⟩
    · rw [if_pos hnone, hc]
    · rw [if_neg (by rw [hf]; exact Option.some_ne_none f), hc]

theorem orphans_some_iff {me : String} {scan : PgrepRun} {found : List String} :
    rundirScopedOrphans me scan = some found ↔ ∃ rc pids, scan = .exited rc pids ∧
      (rc = 0 ∨ rc = 1) ∧ pids.filter (fun p => p ≠ "" ∧ p ≠ me) = found := by
  cases scan with
  | raised => exact ⟨fun h => (by cases h), fun ⟨_, _, h, _⟩ => (by cases h)⟩
  | exited rc pids =>
    unfold rundirScopedOrphans
    dsimp only
    by_cases hrc : rc = 0 ∨ rc = 1
    · rw [if_neg fun h => hrc.elim h.1 h.2, Option.some_inj]
      refine ⟨fun h => ⟨rc, pids, rfl, hrc, h⟩, ?_⟩
      rintro ⟨_, _, heq, _, h⟩
      cases heq
      exact h
    · rw [if_pos (not_or.mp hrc)]
      refine ⟨fun h => (by cases h), ?_⟩
      rintro ⟨_, _, heq, hrc', _⟩
      cases heq
      exact absurd hrc' hrc

theorem filter_nil_iff {me : String} {pids : List String} :
    pids.filter (fun p => p ≠ "" ∧ p ≠ me) = [] ↔ ∀ p ∈ pids, p = "" ∨ p = me := by
  rw [List.filter_eq_nil_iff]
  refine forall₂_congr fun p _ => ?_
  rw [decide_eq_true_iff, not_and_or, not_not, not_not]

theorem orphans_nil_iff {me : String} {scan : PgrepRun} :
    rundirScopedOrphans me scan = some [] ↔ scan.Clean me := by
  rw [orphans_some_iff]
  refine exists₂_congr fun rc pids => ?_
  rw [filter_nil_iff]

theorem orphans_found_iff {me : String} {scan : PgrepRun} :
    (rundirScopedOrphans me scan).getD [] = [] ↔ ¬ scan.Finds me := by
  constructor
  · rintro h ⟨rc, pids, hscan, hrc, p, hp, hne⟩
    rw [orphans_some_iff.mpr ⟨rc, pids, hscan, hrc, rfl⟩] at h
    exact List.filter_eq_nil_iff.mp h p hp (decide_eq_true hne)
  · intro h
    cases ho : rundirScopedOrphans me scan with
    | none => rfl
    | some found =>
      obtain ⟨rc, pids, hscan, hrc, rfl⟩ := orphans_some_iff.mp ho
      refine List.filter_eq_nil_iff.mpr fun p hp hne => h ⟨rc, pids, hscan, hrc, p, hp, ?_⟩
      exact of_decide_eq_true hne

theorem Slice1.processes_iff {tags : List String} {me : String} {scan : PgrepRun} {ls : List Swept} :
    (evalFinal (finalSweep tags me scan ls)).processes = true ↔
      recordsCoverEpochs (ls.map Swept.owned) tags = true ∧ scan.Clean me ∧ ∀ l ∈ ls, ¬ Caught l := by
  unfold FinalGates.processes evalFinal finalSweep evaluateOwnedProcesses
  dsimp only
  rw [evaluate_all, Bool.and_eq_true, Bool.and_eq_true, Bool.true_and, List.all_eq_true, beq_iff_eq,
    orphans_nil_iff, and_assoc, and_rotate]
  refine and_congr_right fun _ => and_congr_right fun _ => forall₂_congr fun l _ => isGone_iff l

theorem Slice3.processes_iff {arms : List String} {me : String} {scan : PgrepRun} {ls : List Swept} :
    (evalFinal (finalSweep arms me scan ls)).processes = true ↔
      recordsCoverIsland arms (ls.map Swept.owned) = true ∧ ¬ scan.Finds me ∧
        ∀ l ∈ ls, ¬ Caught l := by
  unfold FinalGates.processes evalFinal finalSweep evaluateOwnedProcesses
  dsimp only
  rw [evaluate_all, Bool.and_eq_true, Bool.and_eq_true, Bool.true_and, List.all_eq_true, beq_iff_eq,
    orphans_found_iff, and_assoc, and_rotate]
  refine and_congr_right fun _ => and_congr_right fun _ => forall₂_congr fun l _ => ?_
  rw [Bool.not_eq_true', ← ours_iff, Bool.not_eq_true]

/-! ## what is left -/

theorem Swept.asks_iff {l : Swept} : l.asks = true ↔
    l.owned.pid.isSome ∧ l.lstartFails = none ∧ l.holder.isSome := by
  unfold asks
  rw [Bool.and_eq_true, Bool.and_eq_true, Option.isNone_iff_eq_none, and_assoc]

theorem Swept.holder_of_last {l : Swept} (h : l.last.isSome) : l.holder.isSome := by
  unfold last at h
  split at h
  · rename_i hasks
    exact (asks_iff.mp hasks).2.2
  · exact h

/-- a renamed process runs, if the lookup succeeds -/
theorem Swept.Renamed.runs {l : Swept} (h : l.Renamed) (hpid : l.owned.pid.isSome) (hs : l.Succeeds) :
    l.Runs := by
  obtain ⟨p, hp, hstart, _⟩ := h
  obtain ⟨h, hh, _⟩ := l.old p hp hstart
  refine ⟨hpid, p, ?_, hstart⟩
  unfold last
  rw [if_pos (asks_iff.mpr ⟨hpid, (hs hpid).1, by rw [hh]; rfl⟩), hp]

/-- a process that runs and is not renamed shows the recorded start time and command -/
theorem Swept.Runs.shown {l : Swept} (h : l.Runs) (hs : l.Succeeds) (hr : ¬ l.Renamed) :
    l.lstartFails = none ∧ l.commandFails = none ∧ ∃ h p, l.holder = some h ∧
      l.owned.lstart = some h.start ∧ l.later = some p ∧ l.owned.command = some p.command := by
  obtain ⟨hpid, p, hlast, hstart⟩ := h
  have hasks : l.asks = true :=
    asks_iff.mpr ⟨hpid, (hs hpid).1, holder_of_last (by rw [hlast]; rfl)⟩
  unfold last at hlast
  rw [if_pos hasks] at hlast
  obtain ⟨h, hh, hsame⟩ := l.old p hlast hstart
  refine ⟨(hs hpid).1, (hs hpid).2 hasks, h, p, hh, hsame ▸ hstart, hlast, ?_⟩
  exact not_not.mp fun hc => hr ⟨p, hlast, hstart, hc⟩

theorem Slice1.left_iff {l : Swept} (h : ¬ Caught l) :
    l.Succeeds ∧ ¬ l.Runs ∧ ¬ l.Unknown ↔ l.Succeeds ∧ ¬ l.Renamed := by
  have hpid : l.owned.pid.isSome := Option.isSome_iff_ne_none.mpr fun hnone => h (.inl hnone)
  refine and_congr_right fun hs => ⟨fun hleft hr => hleft.1 (hr.runs hpid hs), fun hr => ⟨?_, ?_⟩⟩
  · intro hruns
    obtain ⟨hfail, hf, q, p, hq, hstart, hp, hcommand⟩ := hruns.shown hs hr
    exact h (.inr ⟨hfail, q, hq, .inr (.inr ⟨hstart, hf, p, hp, hcommand⟩)⟩)
  · rintro ⟨hident, hlast⟩
    obtain ⟨q, hq⟩ := Option.isSome_iff_exists.mp (Swept.holder_of_last hlast)
    rcases hident with hnone | hl | hc
    · exact h (.inl hnone)
    · exact h (.inr ⟨(hs hpid).1, q, hq, .inl hl⟩)
    · exact h (.inr ⟨(hs hpid).1, q, hq, .inr (.inl hc)⟩)

theorem Slice3.left_iff {l : Swept} (h : ¬ Caught l) :
    l.Succeeds ∧ ¬ l.Runs ∧ ¬ l.Unknown ↔ l.Succeeds ∧ ¬ l.Renamed ∧ ¬ l.Unknown := by
  refine and_congr_right fun hs => and_congr_left fun hunknown => ⟨fun hruns hr => ?_, fun hr hruns => ?_⟩
  · by_cases hpid : l.owned.pid = none
    · obtain ⟨p, hp, hstart, _⟩ := hr
      obtain ⟨q, hq, _⟩ := l.old p hp hstart
      refine hunknown ⟨.inl hpid, ?_⟩
      unfold Swept.last
      rw [if_neg (by rw [Swept.asks_iff, hpid]; exact fun hasks => by cases hasks.1), hq]
      rfl
    · exact hruns (hr.runs (Option.isSome_iff_ne_none.mpr hpid) hs)
  · obtain ⟨hfail, hf, q, p, hq, hstart, hp, hcommand⟩ := hruns.shown hs hr
    refine h ⟨hruns.1, hfail, q, hq, hstart, .inl ⟨hf, ?_⟩⟩
    rw [hcommand, hp]
    rfl

/-- when a sweep fails closed, by what turns its gates off and what is left where nothing does -/
theorem closed_iff {gates : FinalGates} {me : String} {scan : PgrepRun} {ls : List Swept}
    {covers : Bool} {stops : Prop} {caught safe : Swept → Prop}
    (hgates : gates.processes = true ↔ covers = true ∧ ¬ stops ∧ ∀ l ∈ ls, ¬ caught l)
    (hleft : ∀ l, ¬ caught l → (l.Succeeds ∧ ¬ l.Runs ∧ ¬ l.Unknown ↔ safe l)) :
    SweptClosed gates me scan ls ↔ covers = false ∨ stops ∨ (∃ l ∈ ls, caught l) ∨
      scan.Clean me ∧ ∀ l ∈ ls, safe l := by
  unfold SweptClosed
  rw [hgates]
  constructor
  · intro h
    by_cases hcover : covers = true
    · by_cases hstops : stops
      · exact .inr (.inl hstops)
      · by_cases hcaught : ∃ l ∈ ls, caught l
        · exact .inr (.inr (.inl hcaught))
        · have hfree : ∀ l ∈ ls, ¬ caught l := fun l hl hc => hcaught ⟨l, hl, hc⟩
          obtain ⟨hs, hclean, hl⟩ := h ⟨hcover, hstops, hfree⟩
          exact .inr (.inr (.inr ⟨hclean, fun l hm => (hleft l (hfree l hm)).mp ⟨hs l hm, hl l hm⟩⟩))
    · exact .inl (Bool.not_eq_true _ ▸ hcover)
  · rintro h ⟨hcover, hstops, hfree⟩
    rcases h with hno | hno | ⟨l, hl, hcaught⟩ | ⟨hclean, hsafe⟩
    · rw [hcover] at hno
      cases hno
    · exact absurd hno hstops
    · exact absurd hcaught (hfree l hl)
    · have hleft := fun l hl => (hleft l (hfree l hl)).mpr (hsafe l hl)
      exact ⟨fun l hl => (hleft l hl).1, hclean, fun l hl => (hleft l hl).2⟩

/-- **The final sweeps fail closed** exactly if the records do not cover the run, the scan finds a process,
a record is caught, or else the scan and every lookup succeed and no process has changed its command.  In
slice 1 a scan that fails is enough; in slices 3 and 4 it is not, and no process may have the pid of a record
that lacks its pid or its identity. -/
theorem sweep_closed_iff (me : String) (scan : PgrepRun) (ls : List Swept) :
    (∀ tags, SweptClosed (Slice1.evalFinal (Slice1.finalSweep tags me scan ls)) me scan ls ↔
      Slice1.recordsCoverEpochs (ls.map Swept.owned) tags = false ∨ ¬ scan.Clean me ∨
        (∃ l ∈ ls, Slice1.Caught l) ∨ scan.Clean me ∧ ∀ l ∈ ls, l.Succeeds ∧ ¬ l.Renamed) ∧
    ∀ arms, SweptClosed (Slice3.evalFinal (Slice3.finalSweep arms me scan ls)) me scan ls ↔
      Slice3.recordsCoverIsland arms (ls.map Swept.owned) = false ∨ scan.Finds me ∨
        (∃ l ∈ ls, Slice3.Caught l) ∨
        scan.Clean me ∧ ∀ l ∈ ls, l.Succeeds ∧ ¬ l.Renamed ∧ ¬ l.Unknown := by
  constructor
  · intro tags
    refine closed_iff ?_ fun l => Slice1.left_iff
    rw [not_not]
    exact Slice1.processes_iff
  · intro arms
    exact closed_iff Slice3.processes_iff fun l => Slice3.left_iff

theorem peer_start_ne : "Mon Jul 20 00:00:00 2026" ≠ "" := by decide

theorem peer_command_ne : "exp68_peer" ≠ "" := by decide

def peer : Proc := ⟨"Mon Jul 20 00:00:00 2026", "exp68_peer", peer_start_ne, peer_command_ne⟩

/-- a recorded process that holds its pid to the end, and whose lookup raises -/
def missed (label : String) : Swept where
  owned := ⟨label, some 4242, none, some peer.start, some peer.command⟩
  remote := false
  holder := some peer
  later := some peer
  lstartFails := some (.raised true)
  commandFails := none
  old := fun p hp _ => ⟨p, hp, rfl⟩

theorem missed_open {gates : FinalGates} {me : String} {scan : PgrepRun} {ls : List Swept}
    {label : String} (hgates : gates.processes = true) (hmem : missed label ∈ ls) :
    ¬ SweptClosed gates me scan ls := by
  intro h
  have hfail := ((h hgates).1 _ hmem rfl).1
  cases hfail

/-- every process survives, every run of `ps` raises, and the gates are true -/
theorem survivors_missed :
    (¬ ∀ scan ls, SweptClosed (Slice1.evalFinal (Slice1.finalSweep ["epoch0"] "7" scan ls)) "7" scan ls) ∧
    ∀ arms ∈ [Slice3.arms, Slice4.arms], ¬ ∀ scan ls,
      SweptClosed (Slice3.evalFinal (Slice3.finalSweep arms "7" scan ls)) "7" scan ls := by
  constructor
  · intro h
    exact missed_open (by decide) List.mem_cons_self (h (.exited 1 [])
      [missed "epoch0_root", missed "epoch0_actor_a", missed "epoch0_actor_b"])
  · intro arms harms h
    rcases List.mem_cons.mp harms with rfl | harms
    · exact missed_open (by decide) List.mem_cons_self (h (.exited 1 [])
        [missed "graceful_island_root", missed "graceful_island_actor_a",
          missed "graceful_island_actor_b", missed "loss_island_root", missed "loss_island_actor_a",
          missed "loss_island_actor_b"])
    · cases List.mem_singleton.mp harms
      exact missed_open (by decide) List.mem_cons_self (h (.exited 1 [])
        [missed "normal_island_root", missed "normal_island_actor_a",
          missed "normal_island_actor_b", missed "loss_island_root", missed "loss_island_actor_a",
          missed "loss_island_actor_b"])

end Supervision
end RayX
