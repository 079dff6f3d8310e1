import RayX.Facade.Refusals
import RayX.Facade.Work

/-!
# The list of chores

The driver of `release_actor` and `shutdown` never waits for something that nobody does.

* `Chore.Fits`      the lane is where the chore takes it up;
* `Fitted`          every chore on the list does, and no two of them are about one side of one lane;
* `Fitted.chore`    **a chore leaves the others where they are**;
* `Fitted.goes_on`  **the first chore can be done, or its lane has a step to make**;
* `Chore.weight`, `Lane.toil`   how much is left of the list, and of the first chore;
* `Paced`           the lists of the driver fit, in every reachable state.
-/

namespace RayX
open Sys

/-- what is left of a sweep -/
def Pending.toil : Pending → Nat
  | .idle => 0
  | .cancelling todo => 2 * todo.length
  | .fulfilling _ todo => 2 * todo.length + 1

/-- .. and of a join -/
def Stopper.toil : Stopper → Nat
  | .joining => 1
  | _ => 0

namespace Lane

def toil (l : Lane ActorState) : Nat := l.pending.toil + l.stopper.toil

/-- the driver's side of the lane is the same -/
def Calm (l l' : Lane ActorState) : Prop :=
  l'.pending = l.pending ∧ l'.stopper = l.stopper ∧ l'.mode = l.mode

theorem Calm.refl (l : Lane ActorState) : Calm l l := ⟨rfl, rfl, rfl⟩

theorem Calm.toil {l l' : Lane ActorState} (h : Calm l l') : l'.toil = l.toil := by
  unfold Lane.toil
  rw [h.1, h.2.1]

theorem step_mode {l l' : Lane ActorState} {a : Act ActorState} (hs : l.step a = some l') :
    l'.mode = l.mode := by
  cases step_sound hs <;> rfl

theorem calm_step {l l' : Lane ActorState} {a : Act ActorState} (ha : a.free = true)
    (hs : l.step a = some l') : Calm l l' :=
  ⟨(works_frame ha hs).1, (works_frame ha hs).2, step_mode hs⟩

end Lane

/-! ## chores and their lanes -/

namespace Chore

/-- the side of the lane that the chore is about: the sweep or the stop -/
def side : Chore → Bool × Nat
  | .cancelPending k => (false, k)
  | .sweeping k => (false, k)
  | .stopAndJoin k => (true, k)
  | .joining k => (true, k)

def Fits (l : Lane ActorState) : Chore → Prop
  | .cancelPending _ => l.pending = .idle
  | .sweeping _ => l.pending ≠ .idle
  | .stopAndJoin _ => l.stopper = .idle
  | .joining _ => l.stopper = .joining ∨ (l.stopper = .awaiting ∧ l.mode = .asyncNonBlocking)

def weight : Chore → Nat
  | .cancelPending _ => 2
  | .sweeping _ => 1
  | .stopAndJoin _ => 2
  | .joining _ => 1

variable {c d : Chore} {l l' : Lane ActorState}

theorem side_lane (c : Chore) : c.side.2 = c.lane := by
  cases c <;> rfl

theorem Fits.calm (h : c.Fits l) (hl : Lane.Calm l l') : c.Fits l' := by
  obtain ⟨hp, hs, hm⟩ := hl
  cases c with
  | cancelPending k => exact hp.trans h
  | sweeping k => exact fun he => h (hp.symm.trans he)
  | stopAndJoin k => exact hs.trans h
  | joining k => exact h.imp (hs.trans ·) fun h => ⟨hs.trans h.1, hm.trans h.2⟩

end Chore

def weights (todo : List Chore) : Nat := (todo.map Chore.weight).sum

theorem weights_append (xs ys : List Chore) : weights (xs ++ ys) = weights xs + weights ys := by
  unfold weights
  rw [List.map_append, List.sum_append]

theorem weights_cons (c : Chore) (todo : List Chore) :
    weights (c :: todo) = c.weight + weights todo := rfl

namespace Facade

/-- the other side of the lane of a chore -/
theorem fits_other {l l' : Lane ActorState} {c : Chore} (hm : l'.mode = l.mode)
    (hp : c.side.1 = true → l'.pending = l.pending) (hst : c.side.1 = false → l'.stopper = l.stopper)
    {d : Chore} (hd : d.side.1 ≠ c.side.1) (h : d.Fits l) : d.Fits l' := by
  cases hc : c.side.1 with
  | false =>
    rw [hc] at hd
    have hs := hst hc
    cases d with
    | stopAndJoin k => exact hs.trans h
    | joining k => exact h.imp (hs.trans ·) fun h => ⟨hs.trans h.1, hm.trans h.2⟩
    | _ => exact absurd rfl hd
  | true =>
    rw [hc] at hd
    have hs := hp hc
    cases d with
    | cancelPending k => exact hs.trans h
    | sweeping k => exact fun he => h (hs.symm.trans he)
    | _ => exact absurd rfl hd

/-- **What a chore does**: it leaves the other side of its lane alone, and what is left of it is one
chore about the same side that fits the lane then. -/
theorem opChore_fits {now : Int64} {l l' : Lane ActorState} {c : Chore} {a : Act ActorState}
    {more : List Chore} (hn : opChore now l c = some (a, more)) (hs : l.step a = some l') :
    (∀ d : Chore, d.side.1 ≠ c.side.1 → d.Fits l → d.Fits l') ∧
    (more = [] ∨ ∃ d, more = [d] ∧ d.side = c.side ∧ d.Fits l') ∧
    (weights more < c.weight ∨ (more = [c] ∧ l'.toil < l.toil)) := by
  have hm := Lane.step_mode hs
  have hsweep : c.side.1 = false → l'.stopper = l.stopper →
      ∀ d : Chore, d.side.1 ≠ c.side.1 → d.Fits l → d.Fits l' := by
    intro hc hst d hd h
    exact fits_other hm (fun ht => Bool.noConfusion (hc.symm.trans ht)) (fun _ => hst) hd h
  have hstop : c.side.1 = true → l'.pending = l.pending →
      ∀ d : Chore, d.side.1 ≠ c.side.1 → d.Fits l → d.Fits l' := by
    intro hc hp d hd h
    exact fits_other hm (fun _ => hp) (fun ht => Bool.noConfusion (hc.symm.trans ht)) hd h
  cases c with
  | cancelPending k =>
    cases hn
    cases Lane.step_sound hs with
    | collect hp =>
      exact ⟨hsweep rfl rfl, Or.inr ⟨.sweeping k, rfl, rfl, Pending.noConfusion⟩,
        Or.inl (Nat.lt_succ_self 1)⟩
  | sweeping k =>
    simp only [opChore, Chore.next] at hn
    split at hn
    · rename_i i todo hp
      cases hn
      cases Lane.step_sound hs with
      | @cpCancel j todo' hp' =>
        rw [hp] at hp'
        cases hp'
        refine ⟨hsweep rfl rfl, Or.inr ⟨.sweeping k, rfl, rfl, ?_⟩, Or.inr ⟨rfl, ?_⟩⟩
        · show (if _ then Pending.fulfilling i todo else Pending.cancelling todo) ≠ .idle
          split <;> exact Pending.noConfusion
        · unfold Lane.toil
          rw [hp]
          refine Nat.add_lt_add_right ?_ _
          show (if _ then Pending.fulfilling i todo else Pending.cancelling todo).toil <
            2 * (i :: todo).length
          rw [List.length_cons]
          split
          · show 2 * todo.length + 1 < _
            omega
          · show 2 * todo.length < _
            omega
    · rename_i i todo hp
      cases hn
      cases Lane.step_sound hs with
      | @cpFulfil j todo' _ hp' =>
        rw [hp] at hp'
        cases hp'
        refine ⟨hsweep rfl rfl, Or.inr ⟨.sweeping k, rfl, rfl, Pending.noConfusion⟩,
          Or.inr ⟨rfl, ?_⟩⟩
        unfold Lane.toil
        rw [hp]
        exact Nat.add_lt_add_right (Nat.lt_succ_self _) _
    · cases hn
      cases Lane.step_sound hs with
      | cpReturn hp => exact ⟨hsweep rfl rfl, Or.inl rfl, Or.inl Nat.zero_lt_one⟩
    · cases hn
  | stopAndJoin k =>
    cases hn
    cases Lane.step_sound hs with
    | stopBegin hst =>
      exact ⟨hstop rfl rfl, Or.inr ⟨.joining k, rfl, rfl, Or.inl rfl⟩, Or.inl (Nat.lt_succ_self 1)⟩
  | joining k =>
    simp only [opChore] at hn
    split at hn
    · rename_i hst
      cases hn
      cases Lane.step_sound hs with
      | join _ hc =>
        refine ⟨hstop rfl rfl, ?_⟩
        by_cases hmode : l.mode = .asyncNonBlocking
        · rw [if_pos hmode, if_pos hmode]
          refine ⟨Or.inr ⟨.joining k, rfl, rfl, Or.inr ⟨rfl, hmode⟩⟩, Or.inr ⟨rfl, ?_⟩⟩
          unfold Lane.toil
          rw [hst]
          exact Nat.lt_succ_self _
        · rw [if_neg hmode, if_neg hmode]
          exact ⟨Or.inl rfl, Or.inl Nat.zero_lt_one⟩
    · cases hn
      cases Lane.step_sound hs with
      | awaitInflight hst hi => exact ⟨hstop rfl rfl, Or.inl rfl, Or.inl Nat.zero_lt_one⟩
    · cases hn

/-- **The first chore can be done, or its lane has a step to make.** -/
theorem opChore_on {l : Lane ActorState} {c : Chore} (hf : c.Fits l) (hb : l.Born) :
    (∃ a more l', opChore 0 l c = some (a, more) ∧ l.step a = some l') ∨ l.GoesOn := by
  cases c with
  | cancelPending k =>
    have hp : l.pending = .idle := hf
    exact Or.inl ⟨_, _, _, rfl, by simp only [Lane.step, hp]; rfl⟩
  | sweeping k =>
    have hp : l.pending ≠ .idle := hf
    refine Or.inl ?_
    simp only [opChore, Chore.next]
    cases hpend : l.pending with
    | idle => exact absurd hpend hp
    | cancelling todo =>
      cases todo with
      | nil => exact ⟨_, _, _, rfl, by simp only [Lane.step, hpend]; rfl⟩
      | cons i todo => exact ⟨_, _, _, rfl, by simp only [Lane.step, hpend]; rfl⟩
    | fulfilling i todo => exact ⟨_, _, _, rfl, by simp only [Lane.step, hpend]; rfl⟩
  | stopAndJoin k =>
    have hs : l.stopper = .idle := hf
    exact Or.inl ⟨_, _, _, rfl, by simp only [Lane.step, hs]; rfl⟩
  | joining k =>
    rcases hb.goes_on with ⟨hsvc, hquiet⟩ | hon
    · have hne : l.stopper ≠ .idle := by
        rcases hf with h | ⟨h, _⟩ <;> rw [h] <;> exact Stopper.noConfusion
      have hstop : l.stop = true := hb.wf.stopping.resolve_left hne
      have hexit : l.consumer = .exited := by
        rcases hquiet with ⟨_, _, hrun⟩ | hex
        · exact absurd (hrun.symm.trans hstop) Bool.noConfusion
        · exact hex
      rcases hf with hst | ⟨hst, _⟩
      · refine Or.inl ⟨.join, if l.mode = .asyncNonBlocking then [.joining k] else [], _, ?_,
          by simp only [Lane.step, hst, hexit]; rfl⟩
        simp only [opChore, hst]
      · have hfree : l.inflight = 0 := hb.idle_slots hsvc (Or.inr hexit)
        refine Or.inl ⟨.awaitInflight, [], _, ?_, by simp only [Lane.step, hst, hfree]; rfl⟩
        simp only [opChore, hst]
    · exact Or.inr hon

/-! ## the list -/

structure Fitted (lanes : Nat → Option (Lane ActorState)) (todo : List Chore) : Prop where
  sides : (todo.map Chore.side).Nodup
  fits : ∀ c ∈ todo, ∃ l, lanes c.lane = some l ∧ c.Fits l

/-- what is left of the first chore -/
def headToil (lanes : Nat → Option (Lane ActorState)) (todo : List Chore) : Nat :=
  match todo with
  | [] => 0
  | c :: _ =>
    match lanes c.lane with
    | some l => l.toil
    | none => 0

section
variable {lanes lanes' : Nat → Option (Lane ActorState)} {todo : List Chore}

theorem fitted_nil (lanes : Nat → Option (Lane ActorState)) : Fitted lanes [] where
  sides := List.nodup_nil
  fits := fun _ hc => absurd hc List.not_mem_nil

theorem Fitted.calm (h : Fitted lanes todo)
    (hl : ∀ k l, lanes k = some l → ∃ l', lanes' k = some l' ∧ Lane.Calm l l') : Fitted lanes' todo where
  sides := h.sides
  fits := by
    intro c hc
    obtain ⟨l, hget, hf⟩ := h.fits c hc
    obtain ⟨l', hget', hcalm⟩ := hl c.lane l hget
    exact ⟨l', hget', hf.calm hcalm⟩

theorem headToil_calm (h : Fitted lanes todo)
    (hl : ∀ k l, lanes k = some l → ∃ l', lanes' k = some l' ∧ Lane.Calm l l') :
    headToil lanes' todo = headToil lanes todo := by
  cases todo with
  | nil => rfl
  | cons c todo =>
    obtain ⟨l, hget, _⟩ := h.fits c List.mem_cons_self
    obtain ⟨l', hget', hcalm⟩ := hl c.lane l hget
    simp only [headToil, hget, hget', hcalm.toil]

/-- **A chore leaves the others where they are**, and less is left of the list, or of the chore. -/
theorem Fitted.chore {now : Int64} {c : Chore} {rest more : List Chore} {l l' : Lane ActorState}
    {a : Act ActorState} (h : Fitted lanes (c :: rest)) (hl : lanes c.lane = some l)
    (hn : opChore now l c = some (a, more)) (hs : l.step a = some l')
    (hself : lanes' c.lane = some l') (hother : ∀ k, k ≠ c.lane → lanes' k = lanes k) :
    Fitted lanes' (more ++ rest) ∧ (weights (more ++ rest) < weights (c :: rest) ∨
      (weights (more ++ rest) = weights (c :: rest) ∧
        headToil lanes' (more ++ rest) < headToil lanes (c :: rest))) := by
  obtain ⟨hside, hmore, hless⟩ := opChore_fits hn hs
  have hnd := List.nodup_cons.mp h.sides
  have hrest : ∀ d ∈ rest, ∃ l, lanes' d.lane = some l ∧ d.Fits l := by
    intro d hd
    obtain ⟨l₀, hget, hf⟩ := h.fits d (List.mem_cons_of_mem c hd)
    by_cases hk : d.lane = c.lane
    · rw [hk, hl] at hget
      cases hget
      refine ⟨l', by rw [hk]; exact hself, hside d ?_ hf⟩
      intro he
      have hsame : d.side = c.side :=
        Prod.ext he (by rw [Chore.side_lane, Chore.side_lane, hk])
      exact hnd.1 (hsame ▸ List.mem_map_of_mem hd)
    · exact ⟨l₀, (hother d.lane hk).trans hget, hf⟩
  refine ⟨?_, ?_⟩
  · rcases hmore with rfl | ⟨d, rfl, hds, hdf⟩
    · exact { sides := hnd.2, fits := hrest }
    · refine { sides := ?_, fits := ?_ }
      · show (d.side :: rest.map Chore.side).Nodup
        rw [hds]
        exact h.sides
      · intro d' hd'
        rcases List.mem_cons.mp hd' with rfl | hd'
        · have hlane : d'.lane = c.lane := by
            rw [← Chore.side_lane, hds, Chore.side_lane]
          exact ⟨l', by rw [hlane]; exact hself, hdf⟩
        · exact hrest d' hd'
  · rw [weights_append, weights_cons]
    rcases hless with hlt | ⟨rfl, hlt⟩
    · exact Or.inl (Nat.add_lt_add_right hlt _)
    · refine Or.inr ⟨rfl, ?_⟩
      show headToil lanes' (c :: rest) < headToil lanes (c :: rest)
      simp only [headToil, hself, hl]
      exact hlt

theorem fitted_teardown {ks : List Nat} (hnd : ks.Nodup)
    (hl : ∀ k ∈ ks, ∃ l, lanes k = some l ∧ l.pending = .idle ∧ l.stopper = .idle) :
    Fitted lanes (Engine.teardown ks) where
  sides := by
    have hpair : ∀ b : Bool, (ks.map fun k => (b, k)).Nodup :=
      fun b => hnd.map fun _ _ he => (Prod.mk.inj he).2
    show ((ks.map Chore.cancelPending ++ ks.map Chore.stopAndJoin).map Chore.side).Nodup
    rw [List.map_append, List.map_map, List.map_map]
    refine List.Nodup.append (hpair false) (hpair true) ?_
    intro x hx hy
    obtain ⟨k, _, rfl⟩ := List.mem_map.mp hx
    obtain ⟨k', _, he⟩ := List.mem_map.mp hy
    cases he
  fits := by
    intro c hc
    rcases List.mem_append.mp hc with hc | hc
    · obtain ⟨k, hk, rfl⟩ := List.mem_map.mp hc
      obtain ⟨l, hget, hp, _⟩ := hl k hk
      exact ⟨l, hget, hp⟩
    · obtain ⟨k, hk, rfl⟩ := List.mem_map.mp hc
      obtain ⟨l, hget, _, hs⟩ := hl k hk
      exact ⟨l, hget, hs⟩

theorem weights_teardown (ks : List Nat) : weights (Engine.teardown ks) = 4 * ks.length := by
  have hmap : ∀ (f : Nat → Chore) n, (∀ k, (f k).weight = n) → weights (ks.map f) = n * ks.length := by
    intro f n hf
    unfold weights
    rw [List.map_map]
    induction ks with
    | nil => rfl
    | cons k ks ih =>
      rw [List.map_cons, List.sum_cons, ih, List.length_cons]
      show (f k).weight + _ = _
      rw [hf]
      ring
  unfold Engine.teardown
  rw [weights_append, hmap .cancelPending 2 (fun _ => rfl), hmap .stopAndJoin 2 (fun _ => rfl)]
  ring

end

end Facade
end RayX
