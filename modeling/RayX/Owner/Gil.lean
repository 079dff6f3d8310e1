import RayX.Owner.Owner
import Mathlib.Logic.Function.Basic

/-!
# The GIL and the mutex of the owner

Python threads that call the owner: each enters with the GIL, locks `mu_` while it holds the GIL,
releases the GIL around `hpx::start` and `hpx::stop`, and takes it back before it unlocks `mu_`.

* `Threads`, `Threads.step`   who holds the two locks, and where each thread stands;
* `Held`                      a thread holds the locks that its place says, and nobody else does;
* `Deadlock`, `deadlock_stuck`   one thread holds `mu_` and waits for the GIL, another one holds the
                              GIL and waits for `mu_`: nothing moves any more;
* `deadlock_iff_overlap`      **calls that do not begin while another thread starts or stops HPX
                              never deadlock, and one that does can always be led into it**.
-/

namespace RayX
open Sys

/-- a call of HPX with the GIL released, and the rest of its critical section -/
inductive HpxCall where
  | start (threads : Int) (k : Except String Bool → Critical)
  | stop (k : Critical)

def HpxCall.resume (answer : Except String Bool) : HpxCall → Critical
  | .start _ k => k answer
  | .stop k => k

inductive Pc where
  | away
  | python
  | entering (call : OwnerCall)
  | inside (x : Critical)
  | hpx (call : HpxCall)
  | returning (x : Critical)

namespace Pc

def holdsGil : Pc → Bool
  | .python => true
  | .entering _ => true
  | .inside _ => true
  | _ => false

def holdsMu : Pc → Bool
  | .inside _ => true
  | .hpx _ => true
  | .returning _ => true
  | _ => false

/-- between the release of the GIL and its reacquisition, `mu_` held -/
def inHpx : Pc → Bool
  | .hpx _ => true
  | .returning _ => true
  | _ => false

end Pc

structure Threads where
  owner : Owner := {}
  gil : Option Nat := none
  mu : Option Nat := none
  pc : Nat → Pc := fun _ => .away

namespace Threads

inductive Act where
  | takeGil (t : Nat)
  | dropGil (t : Nat)
  | call (t : Nat) (call : OwnerCall)
  | lock (t : Nat)
  | advance (t : Nat)
  | hpxDone (t : Nat) (answer : Except String Bool)
  | regain (t : Nat)

def move (s : Threads) (t : Nat) (pc : Pc) : Threads := { s with pc := Function.update s.pc t pc }

def step (s : Threads) : Act → Option Threads
  | .takeGil t =>
    match s.pc t, s.gil with
    | .away, none => some { s.move t .python with gil := some t }
    | _, _ => none
  | .dropGil t =>
    match s.pc t with
    | .python => some { s.move t .away with gil := none }
    | _ => none
  | .call t call =>
    match s.pc t with
    | .python => some (s.move t (.entering call))
    | _ => none
  | .lock t =>
    match s.pc t, s.mu with
    | .entering call, none => some { s.move t (.inside (call.body s.owner)) with mu := some t }
    | _, _ => none
  | .advance t =>
    match s.pc t with
    | .inside (.leave _ o) => some { s.move t .python with owner := o, mu := none }
    | .inside (.start n o k) =>
      -- `gil_scoped_release` of `start_process_hpx`
      some { s.move t (.hpx (.start n k)) with owner := o, gil := none }
    | .inside (.stop o k) => some { s.move t (.hpx (.stop k)) with owner := o, gil := none }
    | _ => none
  | .hpxDone t answer =>
    match s.pc t with
    | .hpx call => some (s.move t (.returning (call.resume answer)))
    | _ => none
  | .regain t =>
    match s.pc t, s.gil with
    | .returning x, none => some { s.move t (.inside x) with gil := some t }
    | _, _ => none

/-- the bad state: `mu_` is held by a thread that waits for the GIL, the GIL by a thread that waits
for `mu_` -/
def Deadlock (s : Threads) : Prop :=
  ∃ t t' x c, s.mu = some t ∧ s.pc t = .returning x ∧ s.gil = some t' ∧ s.pc t' = .entering c

/-! ## who holds what -/

structure Held (s : Threads) : Prop where
  gil : ∀ t, s.gil = some t ↔ (s.pc t).holdsGil = true
  mu : ∀ t, s.mu = some t ↔ (s.pc t).holdsMu = true

variable {s s' : Threads}

/-- moving one thread between places with the same locks -/
theorem lock_keep {l : Option Nat} {f : Pc → Bool} (h : ∀ t, l = some t ↔ f (s.pc t) = true)
    {t : Nat} {pc : Pc} (hpc : f pc = f (s.pc t)) (u : Nat) :
    l = some u ↔ f (Function.update s.pc t pc u) = true := by
  have ht : l = some t ↔ f pc = true := by
    rw [hpc]
    exact h t
  exact update_all (P := fun u x => l = some u ↔ f x = true) h ht u

theorem lock_take {f : Pc → Bool} (h : ∀ t, none = some t ↔ f (s.pc t) = true) {t : Nat} {pc : Pc}
    (hpc : f pc = true) (u : Nat) :
    some t = some u ↔ f (Function.update s.pc t pc u) = true := by
  by_cases hu : u = t
  · rw [hu, Function.update_self, hpc]
    exact iff_of_true rfl rfl
  · rw [Function.update_of_ne hu]
    refine iff_of_false (fun he => hu (Option.some.inj he).symm) (fun hf => ?_)
    cases (h u).mpr hf

theorem lock_drop {l : Option Nat} {f : Pc → Bool} (h : ∀ t, l = some t ↔ f (s.pc t) = true)
    {t : Nat} {pc : Pc} (ht : f (s.pc t) = true) (hpc : f pc = false) (u : Nat) :
    none = some u ↔ f (Function.update s.pc t pc u) = true := by
  by_cases hu : u = t
  · rw [hu, Function.update_self, hpc]
    simp
  · rw [Function.update_of_ne hu]
    refine iff_of_false (by simp) (fun hf => hu ?_)
    have h1 := (h u).mpr hf
    rw [(h t).mpr ht] at h1
    exact (Option.some.inj h1).symm

theorem Held.step (h : Held s) {a : Act} (hs : step s a = some s') : Held s' := by
  cases a with
  | takeGil t =>
    simp only [Threads.step] at hs
    split at hs
    · rename_i hpc hg
      cases hs
      exact ⟨lock_take (by rw [← hg]; exact h.gil) rfl, lock_keep h.mu (by rw [hpc]; rfl)⟩
    · cases hs
  | dropGil t =>
    simp only [Threads.step] at hs
    split at hs
    · rename_i hpc
      cases hs
      exact ⟨lock_drop h.gil (by rw [hpc]; rfl) rfl, lock_keep h.mu (by rw [hpc]; rfl)⟩
    · cases hs
  | call t call =>
    simp only [Threads.step] at hs
    split at hs
    · rename_i hpc
      cases hs
      exact ⟨lock_keep h.gil (by rw [hpc]; rfl), lock_keep h.mu (by rw [hpc]; rfl)⟩
    · cases hs
  | lock t =>
    simp only [Threads.step] at hs
    split at hs
    · rename_i call hpc hm
      cases hs
      exact ⟨lock_keep h.gil (by rw [hpc]; rfl), lock_take (by rw [← hm]; exact h.mu) rfl⟩
    · cases hs
  | advance t =>
    simp only [Threads.step] at hs
    split at hs
    · rename_i r o hpc
      cases hs
      exact ⟨lock_keep h.gil (by rw [hpc]; rfl), lock_drop h.mu (by rw [hpc]; rfl) rfl⟩
    · rename_i n o k hpc
      cases hs
      exact ⟨lock_drop h.gil (by rw [hpc]; rfl) rfl, lock_keep h.mu (by rw [hpc]; rfl)⟩
    · rename_i o k hpc
      cases hs
      exact ⟨lock_drop h.gil (by rw [hpc]; rfl) rfl, lock_keep h.mu (by rw [hpc]; rfl)⟩
    · cases hs
  | hpxDone t answer =>
    simp only [Threads.step] at hs
    split at hs
    · rename_i call hpc
      cases hs
      exact ⟨lock_keep h.gil (by rw [hpc]; rfl), lock_keep h.mu (by rw [hpc]; rfl)⟩
    · cases hs
  | regain t =>
    simp only [Threads.step] at hs
    split at hs
    · rename_i x hpc hg
      cases hs
      exact ⟨lock_take (by rw [← hg]; exact h.gil) rfl, lock_keep h.mu (by rw [hpc]; rfl)⟩
    · cases hs

theorem held_init : Held {} where
  gil := by simp [Pc.holdsGil]
  mu := by simp [Pc.holdsMu]

theorem held_reach (h : Reach step {} s) : Held s :=
  h.inv (fun _ _ _ hi hs => hi.step hs) held_init

/-- **Nothing moves in a deadlock.** -/
theorem deadlock_stuck (h : Held s) (hd : Deadlock s) (a : Act) : step s a = none := by
  obtain ⟨t, t', x, c, hm, ht, hg, ht'⟩ := hd
  -- every other thread is away
  have haway : ∀ u, u ≠ t → u ≠ t' → s.pc u = .away := by
    intro u hu hu'
    have hnog : (s.pc u).holdsGil = false := by
      by_contra hh
      have he := (h.gil u).mpr ((Bool.not_eq_false _).mp hh)
      rw [hg] at he
      exact hu' (Option.some.inj he).symm
    have hnom : (s.pc u).holdsMu = false := by
      by_contra hh
      have he := (h.mu u).mpr ((Bool.not_eq_false _).mp hh)
      rw [hm] at he
      exact hu (Option.some.inj he).symm
    cases hpc : s.pc u with
    | away => rfl
    | python => rw [hpc] at hnog; cases hnog
    | entering c => rw [hpc] at hnog; cases hnog
    | inside x => rw [hpc] at hnog; cases hnog
    | hpx x => rw [hpc] at hnom; cases hnom
    | returning x => rw [hpc] at hnom; cases hnom
  have hcases : ∀ u, s.pc u = .away ∨ s.pc u = .returning x ∨ s.pc u = .entering c := by
    intro u
    by_cases hu : u = t
    · exact Or.inr (Or.inl (hu ▸ ht))
    · by_cases hu' : u = t'
      · exact Or.inr (Or.inr (hu' ▸ ht'))
      · exact Or.inl (haway u hu hu')
  cases a with
  | takeGil u => rcases hcases u with hu | hu | hu <;> simp [step, hu, hg]
  | dropGil u => rcases hcases u with hu | hu | hu <;> simp [step, hu]
  | call u call => rcases hcases u with hu | hu | hu <;> simp [step, hu]
  | lock u => rcases hcases u with hu | hu | hu <;> simp [step, hu, hm]
  | advance u => rcases hcases u with hu | hu | hu <;> simp [step, hu]
  | hpxDone u answer => rcases hcases u with hu | hu | hu <;> simp [step, hu]
  | regain u => rcases hcases u with hu | hu | hu <;> simp [step, hu, hg]

/-! ## calls that overlap a start or a stop of HPX -/

/-- a call of the owner begins only while no thread starts or stops HPX -/
def Apart (s : Threads) : Act → Prop
  | .call _ _ => ∀ t, (s.pc t).inHpx = false
  | _ => True

/-- no thread waits for `mu_` while another one starts or stops HPX -/
def Clear (s : Threads) : Prop := ∀ t t' c, s.pc t = .entering c → (s.pc t').inHpx = false

/-- a step that lets no thread enter and starts no HPX call -/
theorem Clear.move (h : Clear s) {t : Nat} {pc : Pc} (hpc' : s'.pc = Function.update s.pc t pc)
    (hent : ∀ c, pc ≠ .entering c) (hhpx : pc.inHpx = true → (s.pc t).inHpx = true) :
    Clear s' := by
  intro u u' c hu
  rw [hpc'] at hu ⊢
  have hut : u ≠ t := by
    intro he
    rw [he, Function.update_self] at hu
    exact hent c hu
  rw [Function.update_of_ne hut] at hu
  by_cases hut' : u' = t
  · rw [hut', Function.update_self]
    have hno := h u t c hu
    by_contra hh
    rw [hhpx ((Bool.not_eq_false _).mp hh)] at hno
    cases hno
  · rw [Function.update_of_ne hut']
    exact h u u' c hu

/-- while a thread is inside with both locks, nobody waits for `mu_` -/
theorem Held.nobody_enters (hh : Held s) {t : Nat} {x : Critical} (ht : s.pc t = .inside x)
    (u : Nat) (c : OwnerCall) : s.pc u ≠ .entering c := by
  intro hu
  have h1 := (hh.gil t).mpr (by rw [ht]; rfl)
  have h2 := (hh.gil u).mpr (by rw [hu]; rfl)
  rw [h1] at h2
  obtain rfl := Option.some.inj h2
  rw [ht] at hu
  cases hu

theorem Clear.release (hh : Held s) {t : Nat} {x : Critical} {y : HpxCall} (ht : s.pc t = .inside x)
    (hpc' : s'.pc = Function.update s.pc t (.hpx y)) : Clear s' := by
  intro u u' c hu
  rw [hpc'] at hu
  by_cases hut : u = t
  · rw [hut, Function.update_self] at hu
    cases hu
  · rw [Function.update_of_ne hut] at hu
    exact absurd hu (hh.nobody_enters ht u c)

theorem Clear.step (h : Clear s) (hh : Held s) {a : Act} (ha : Apart s a)
    (hs : step s a = some s') : Clear s' := by
  cases a with
  | takeGil t =>
    simp only [Threads.step] at hs
    split at hs
    · cases hs
      exact h.move rfl (by simp) (by simp [Pc.inHpx])
    · cases hs
  | dropGil t =>
    simp only [Threads.step] at hs
    split at hs
    · cases hs
      exact h.move rfl (by simp) (by simp [Pc.inHpx])
    · cases hs
  | call t call =>
    simp only [Threads.step] at hs
    split at hs
    · cases hs
      intro u u' c _
      exact update_all (P := fun _ x => Pc.inHpx x = false) ha rfl u'
    · cases hs
  | lock t =>
    simp only [Threads.step] at hs
    split at hs
    · cases hs
      exact h.move rfl (by simp) (by simp [Pc.inHpx])
    · cases hs
  | advance t =>
    simp only [Threads.step] at hs
    split at hs
    · cases hs
      exact h.move rfl (by simp) (by simp [Pc.inHpx])
    · rename_i hpc
      cases hs
      exact Clear.release hh hpc rfl
    · rename_i hpc
      cases hs
      exact Clear.release hh hpc rfl
    · cases hs
  | hpxDone t answer =>
    simp only [Threads.step] at hs
    split at hs
    · rename_i hpc
      cases hs
      exact h.move rfl (by simp) (fun _ => by rw [hpc]; rfl)
    · cases hs
  | regain t =>
    simp only [Threads.step] at hs
    split at hs
    · cases hs
      exact h.move rfl (by simp) (by simp [Pc.inHpx])
    · cases hs

theorem Clear.no_deadlock (h : Clear s) : ¬ Deadlock s := by
  intro hd
  obtain ⟨t, t', x, c, _, ht, _, ht'⟩ := hd
  have hno := h t' t c ht'
  rw [ht] at hno
  cases hno

/-- a call that begins while another thread starts or stops HPX is led into the deadlock by the
end of that start or stop -/
theorem overlap_deadlocks (hh : Held s) {t u : Nat} {call : OwnerCall}
    (hs : step s (.call t call) = some s') (hu : (s.pc u).inHpx = true) :
    ∃ s'', Reach step s' s'' ∧ Deadlock s'' := by
  simp only [Threads.step] at hs
  split at hs
  · rename_i hpc
    cases hs
    have hut : u ≠ t := by
      intro he
      rw [he, hpc] at hu
      cases hu
    have hgil : s.gil = some t := (hh.gil t).mpr (by rw [hpc]; rfl)
    have hmu : s.mu = some u := by
      apply (hh.mu u).mpr
      cases hpu : s.pc u with
      | hpx x => rfl
      | returning x => rfl
      | _ =>
        rw [hpu] at hu
        cases hu
    have hself : (s.move t (.entering call)).pc t = .entering call := Function.update_self _ _ _
    have hother : (s.move t (.entering call)).pc u = s.pc u := Function.update_of_ne hut _ _
    cases hpu : s.pc u with
    | hpx c =>
      have hstep : step (s.move t (.entering call)) (.hpxDone u (.ok true)) =
          some ((s.move t (.entering call)).move u (.returning (c.resume (.ok true)))) := by
        simp only [Threads.step, hother, hpu]
      refine ⟨_, .one _ hstep, u, t, _, call, hmu, Function.update_self _ _ _, hgil, ?_⟩
      exact (Function.update_of_ne (Ne.symm hut) _ _).trans hself
    | returning x => exact ⟨_, .refl _, u, t, x, call, hmu, hother.trans hpu, hgil, hself⟩
    | _ =>
      rw [hpu] at hu
      cases hu
  · cases hs

/-- **No run whose calls begin apart from every start and stop of HPX reaches the deadlock; a call
that overlaps one can be led into it.** -/
theorem deadlock_iff_overlap {as : List Act} (hrun : run step {} as = some s) :
    (stepsMeet step Apart {} as → ¬ Deadlock s) ∧
    (∀ t call s', step s (.call t call) = some s' → ¬ Apart s (.call t call) →
      ∃ s'', Reach step s' s'' ∧ Deadlock s'') := by
  constructor
  · intro hC
    refine Clear.no_deadlock (run_inv_of (P := fun s => Held s ∧ Clear s) ?_ hrun hC ?_).2
    · intro s a s' hi ha hs
      exact ⟨hi.1.step hs, hi.2.step hi.1 ha hs⟩
    · refine ⟨held_init, ?_⟩
      intro t t' c ht
      cases ht
  · intro t call s' hs ha
    obtain ⟨u, hu⟩ := not_forall.mp ha
    exact overlap_deadlocks (held_reach ⟨as, hrun⟩) hs ((Bool.not_eq_false _).mp hu)

/-- a Runtime starts HPX, and another thread opens an Endpoint meanwhile -/
def overlapRun : List Act :=
  [.takeGil 0, .call 0 (.attach .runtime 4), .lock 0, .advance 0, .takeGil 1,
    .call 1 (.attach .endpoint 0), .hpxDone 0 (.ok true)]

/-- the bad state is reachable -/
theorem overlapRun_deadlocks : ¬ ∀ s, Reach step {} s → ¬ Deadlock s := by
  intro h
  obtain ⟨s, hrun, hd⟩ : ∃ s, run step {} overlapRun = some s ∧ Deadlock s :=
    ⟨_, rfl, 0, 1, _, _, rfl, rfl, rfl, rfl⟩
  exact h s ⟨overlapRun, hrun⟩ hd

/-- one after the other: the same two calls, the second one after the first has returned -/
def apartRun : List Act :=
  [.takeGil 0, .call 0 (.attach .runtime 4), .lock 0, .advance 0, .hpxDone 0 (.ok true), .regain 0,
    .advance 0, .dropGil 0, .takeGil 1, .call 1 (.attach .endpoint 0)]

theorem apartRun_meets : stepsMeet step Apart {} apartRun := by
  refine stepsMeet_cons trivial rfl ?_
  refine stepsMeet_cons (fun t => ?_) rfl ?_
  · cases t <;> rfl
  refine stepsMeet_cons trivial rfl ?_
  refine stepsMeet_cons trivial rfl ?_
  refine stepsMeet_cons trivial rfl ?_
  refine stepsMeet_cons trivial rfl ?_
  refine stepsMeet_cons trivial rfl ?_
  refine stepsMeet_cons trivial rfl ?_
  refine stepsMeet_cons trivial rfl ?_
  refine stepsMeet_cons (fun t => ?_) rfl trivial
  rcases t with _ | _ | t <;> rfl

theorem deadlock_iff_overlap_apart : ∃ s, run step {} apartRun = some s ∧ ¬ Deadlock s :=
  ⟨_, rfl, (deadlock_iff_overlap (rfl : run step {} apartRun = some _)).1 apartRun_meets⟩

end Threads

end RayX
