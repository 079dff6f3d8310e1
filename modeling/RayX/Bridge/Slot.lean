import RayX.Owner.Owner
import RayX.Lib.Count

/-!
# The bridge slot

`RuntimeBridgeSlot` between any number of bridge callers and a succession of Runtimes.  The owner
admits one Runtime at a time; each one builds its lanes, publishes itself, and drains the slot
before it tears its lanes down and detaches.

* `Slot`           the three fields under the slot's mutex and the critical sections on them;
* `Bridge.step`    one step of a caller, of a Runtime or of another user of the owner;
* `Gate`           the invariant: the counter counts the callers between acquire and release, and
                   what they hold is a Runtime whose drain has not returned;
* `bridge_gate`    **no caller holds a Runtime whose drain has returned, and nobody acquires
                   before the next publish**.
-/

namespace RayX
open Sys

/-! ## the slot -/

/-- `bridge_`, `draining_` and `in_flight_`; a Runtime is named by a number -/
structure Slot where
  bridge : Option Nat := none
  draining : Bool := false
  inFlight : Nat := 0
  deriving DecidableEq

/-- what `acquire` leaves in `out_status` when there is no bridge -/
inductive Unavailable where
  | absent
  | draining
  deriving DecidableEq, Repr

namespace Slot

def publish (s : Slot) (r : Nat) : Slot := { s with bridge := some r, draining := false }

def acquire (s : Slot) : Except Unavailable Nat × Slot :=
  match s.bridge with
  | none => (.error (if s.draining then .draining else .absent), s)
  | some r => (.ok r, { s with inFlight := s.inFlight + 1 })

def release (s : Slot) : Slot := if 0 < s.inFlight then { s with inFlight := s.inFlight - 1 } else s

/-- `drain_and_unpublish` up to its wait -/
def drain (s : Slot) : Slot := { s with bridge := none, draining := true }

theorem acquire_ok {s s' : Slot} {r : Nat} (h : s.acquire = (.ok r, s')) :
    s.bridge = some r ∧ s' = { s with inFlight := s.inFlight + 1 } := by
  unfold acquire at h
  split at h
  · cases h
  · rename_i hb
    cases h
    exact ⟨hb, rfl⟩

theorem release_inFlight (s : Slot) : s.release.inFlight = s.inFlight - 1 := by
  unfold release
  split
  · rfl
  · omega

theorem release_bridge (s : Slot) : s.release.bridge = s.bridge := by
  unfold release
  split <;> rfl

end Slot

/-! ## callers and Runtimes -/

/-- the life of one `RuntimeEngine`, from before its constructor to after its `shutdown` -/
inductive RuntimePhase where
  | fresh
  | attached
  | built
  | live
  | draining
  | drained
  | torn
  | gone
  deriving DecidableEq, Repr

/-- between its attach and its detach -/
def RuntimePhase.holds : RuntimePhase → Bool
  | .fresh => false
  | .gone => false
  | _ => true

/-- a bridge caller that has acquired: it holds the bridge of `engine`, or its dispatch is over,
`threw` or not, and the release is due -/
inductive Hold where
  | holding (engine : Nat)
  | leaving (engine : Nat) (threw : Bool)
  deriving DecidableEq

def Hold.engine : Hold → Nat
  | .holding r => r
  | .leaving r _ => r

structure Bridge where
  owner : Owner := {}
  slot : Slot := {}
  phase : Nat → RuntimePhase := fun _ => .fresh
  caller : Nat → Option Hold := fun _ => none

/-- a call of the owner by an Engine or an Endpoint -/
def OwnerCall.foreign : OwnerCall → Bool
  | .attach .runtime _ => false
  | .detach .runtime => false
  | _ => true

namespace Bridge

inductive Act where
  | attach (r : Nat) (threads : Int) (hpx : Except String Bool)
  | build (r : Nat)
  | buildFails (r : Nat) (hpx : Except String Bool)
  | publish (r : Nat)
  | drainBegin (r : Nat)
  | drainEnd (r : Nat)
  | teardown (r : Nat)
  | detach (r : Nat) (hpx : Except String Bool)
  | other (call : OwnerCall) (hpx : Except String Bool)
  | acquire (c : Nat)
  | dispatch (c : Nat) (throws : Bool)
  | release (c : Nat)

def setPhase (s : Bridge) (r : Nat) (p : RuntimePhase) : Bridge :=
  { s with phase := Function.update s.phase r p }

def setCaller (s : Bridge) (c : Nat) (h : Option Hold) : Bridge :=
  { s with caller := Function.update s.caller c h }

def step (s : Bridge) : Act → Option Bridge
  | .attach r threads hpx =>
    if s.phase r = .fresh then
      match (RayX.attach .runtime threads s.owner).run hpx with
      | (.ok _, owner, _) => some { s.setPhase r .attached with owner := owner }
      | (.error _, owner, _) => some { s.setPhase r .gone with owner := owner }
    else none
  | .build r => if s.phase r = .attached then some (s.setPhase r .built) else none
  | .buildFails r hpx =>
    if s.phase r = .attached then
      some { s.setPhase r .gone with owner := ((RayX.detach .runtime s.owner).run hpx).2.1 }
    else none
  | .publish r =>
    if s.phase r = .built then some { s.setPhase r .live with slot := s.slot.publish r } else none
  | .drainBegin r =>
    if s.phase r = .live then some { s.setPhase r .draining with slot := s.slot.drain } else none
  | .drainEnd r =>
    if s.phase r = .draining ∧ s.slot.inFlight = 0 then some (s.setPhase r .drained) else none
  | .teardown r => if s.phase r = .drained then some (s.setPhase r .torn) else none
  | .detach r hpx =>
    if s.phase r = .torn then
      some { s.setPhase r .gone with owner := ((RayX.detach .runtime s.owner).run hpx).2.1 }
    else none
  | .other call hpx =>
    if call.foreign then some { s with owner := ((call.body s.owner).run hpx).2.1 } else none
  | .acquire c =>
    match s.caller c, s.slot.acquire with
    | none, (.ok r, slot) => some { s.setCaller c (some (.holding r)) with slot := slot }
    | none, (.error _, slot) => some { s with slot := slot }
    | some _, _ => none
  | .dispatch c throws =>
    match s.caller c with
    | some (.holding r) => some (s.setCaller c (some (.leaving r throws)))
    | _ => none
  | .release c =>
    match s.caller c with
    | some (.leaving _ _) => some { s.setCaller c none with slot := s.slot.release }
    | _ => none

/-! ## the gate -/

structure Gate (s : Bridge) : Prop where
  lease : ∃ l t, s.owner = Lease.owner l t ∧
    (l.holder = some .runtime ↔ ∃ r, (s.phase r).holds = true)
  single : ∀ r r', (s.phase r).holds = true → (s.phase r').holds = true → r = r'
  published : ∀ r, s.slot.bridge = some r → s.phase r = .live
  count : (holders s.caller).encard = s.slot.inFlight
  held : ∀ c h, s.caller c = some h → s.phase h.engine = .live ∨ s.phase h.engine = .draining

theorem gate_init : Gate {} where
  lease := ⟨⟨none, 0, by simp⟩, 0, rfl, by simp [RuntimePhase.holds]⟩
  single := by simp [RuntimePhase.holds]
  published := by simp
  count := by simp [holders]
  held := by simp

variable {s s' : Bridge}

/-- one Runtime moves on between its attach and its detach -/
theorem Gate.move (h : Gate s) {r : Nat} {p : RuntimePhase} {slot : Slot}
    (hr : (s.phase r).holds = true) (hp : p.holds = true)
    (hslot : ∀ x, slot.bridge = some x → Function.update s.phase r p x = .live)
    (hcount : slot.inFlight = s.slot.inFlight)
    (hheld : ∀ c x, s.caller c = some x → x.engine = r → p = .live ∨ p = .draining) :
    Gate { s.setPhase r p with slot := slot } where
  lease := by
    obtain ⟨l, t, ho, hl⟩ := h.lease
    refine ⟨l, t, ho, hl.trans ⟨fun _ => ⟨r, ?_⟩, fun _ => ⟨r, hr⟩⟩⟩
    show (Function.update s.phase r p r).holds = true
    rw [Function.update_self]
    exact hp
  single := by
    have hof : ∀ x, (Function.update s.phase r p x).holds = true → (s.phase x).holds = true :=
      update_all (P := fun x q => RuntimePhase.holds q = true → (s.phase x).holds = true) (fun _ hx => hx)
        (fun _ => hr)
    exact fun a b ha hb => h.single a b (hof a ha) (hof b hb)
  published := hslot
  count := by
    show (holders s.caller).encard = slot.inFlight
    rw [hcount]
    exact h.count
  held := by
    intro c x hx
    show Function.update s.phase r p x.engine = .live ∨
      Function.update s.phase r p x.engine = .draining
    by_cases hxr : x.engine = r
    · rw [hxr, Function.update_self]
      exact hheld c x hx hxr
    · rw [Function.update_of_ne hxr]
      exact h.held c x hx

/-- a caller that moves on -/
theorem Gate.held_update (h : Gate s) {c : Nat} {y : Option Hold}
    (hy : ∀ x, y = some x → s.phase x.engine = .live ∨ s.phase x.engine = .draining) (c' : Nat) :
    ∀ x, Function.update s.caller c y c' = some x →
      s.phase x.engine = .live ∨ s.phase x.engine = .draining :=
  update_all (P := fun _ y => ∀ x : Hold, y = some x →
    s.phase x.engine = .live ∨ s.phase x.engine = .draining) h.held hy c'

/-- a Runtime that callers hold is live or draining -/
theorem Gate.unheld (h : Gate s) {r : Nat} (h1 : s.phase r ≠ .live) (h2 : s.phase r ≠ .draining)
    {c : Nat} {x : Hold} (hx : s.caller c = some x) : x.engine ≠ r := by
  intro he
  rcases h.held c x hx with hp | hp
  · exact h1 (he ▸ hp)
  · exact h2 (he ▸ hp)

/-- the published Runtime is not one of another phase -/
theorem Gate.unpublished (h : Gate s) {r : Nat} (h1 : s.phase r ≠ .live) {x : Nat}
    (hx : s.slot.bridge = some x) {p : RuntimePhase} : Function.update s.phase r p x = .live := by
  have hl := h.published x hx
  have hne : x ≠ r := fun he => h1 (he ▸ hl)
  rw [Function.update_of_ne hne]
  exact hl

/-- a Runtime that is neither published nor held changes hands with the owner -/
theorem Gate.handOver (h : Gate s) {r : Nat} {p : RuntimePhase} {owner : Owner}
    (h1 : s.phase r ≠ .live) (h2 : s.phase r ≠ .draining)
    (hlease : ∃ l t, owner = Lease.owner l t ∧
      (l.holder = some .runtime ↔ ∃ x, (Function.update s.phase r p x).holds = true))
    (hsingle : ∀ a b, (Function.update s.phase r p a).holds = true →
      (Function.update s.phase r p b).holds = true → a = b) :
    Gate { s.setPhase r p with owner := owner } where
  lease := hlease
  single := hsingle
  published := fun x hx => h.unpublished h1 hx
  count := h.count
  held := by
    intro c x hx
    show Function.update s.phase r p x.engine = .live ∨
      Function.update s.phase r p x.engine = .draining
    rw [Function.update_of_ne (h.unheld h1 h2 hx)]
    exact h.held c x hx

/-- while one Runtime holds the owner, the one that holds it after a change of its phase is it -/
theorem Gate.only (h : Gate s) {r x : Nat} {p q : RuntimePhase} (hr : (s.phase r).holds = true)
    (hx : Function.update s.phase r p x = q) (hq : q.holds = true) : x = r ∧ p = q := by
  by_cases hxr : x = r
  · rw [hxr, Function.update_self] at hx
    exact ⟨hxr, hx⟩
  · rw [Function.update_of_ne hxr] at hx
    exact absurd (h.single x r (by rw [hx]; exact hq) hr) hxr

/-- with one Runtime, nobody else holds the owner -/
theorem Gate.alone (h : Gate s) {r : Nat} (hr : (s.phase r).holds = true) {p : RuntimePhase}
    (hp : p.holds = false) (x : Nat) : (Function.update s.phase r p x).holds = false := by
  by_contra hx
  have hx := (Bool.not_eq_false _).mp hx
  rw [← (h.only hr rfl hx).2, hp] at hx
  cases hx

theorem Gate.detach (h : Gate s) {r : Nat} (hr : (s.phase r).holds = true)
    (h1 : s.phase r ≠ .live) (h2 : s.phase r ≠ .draining) (hpx : Except String Bool) :
    Gate { s.setPhase r .gone with owner := ((RayX.detach .runtime s.owner).run hpx).2.1 } := by
  have halone := h.alone (p := .gone) hr rfl
  obtain ⟨l, t, ho, hl⟩ := h.lease
  refine h.handOver h1 h2 ⟨l.detach .runtime, t, ?_, ?_⟩ ?_
  · rw [ho, Lease.detach_run _ _ .runtime 0 hpx]
  · have hhold : l.holder = some .runtime := hl.mpr ⟨r, hr⟩
    have hnone : (l.detach .runtime).holder = none := by rw [Lease.detach, if_pos hhold]
    rw [hnone]
    refine iff_of_false (by simp) ?_
    intro hx
    obtain ⟨x, hx⟩ := hx
    rw [halone x] at hx
    cases hx
  · intro a b ha
    rw [halone a] at ha
    cases ha

theorem Gate.attach (h : Gate s) {r : Nat} (hr : s.phase r = .fresh) (threads : Int)
    (hpx : Except String Bool) (hs : step s (.attach r threads hpx) = some s') : Gate s' := by
  simp only [Bridge.step, hr, if_true] at hs
  have h1 : s.phase r ≠ .live := hr.trans_ne RuntimePhase.noConfusion
  have h2 : s.phase r ≠ .draining := hr.trans_ne RuntimePhase.noConfusion
  have hoff : (s.phase r).holds = false := by rw [hr]; rfl
  obtain ⟨l, t, ho, hl⟩ := h.lease
  have hother : ∀ (p : RuntimePhase) x, x ≠ r → Function.update s.phase r p x = s.phase x :=
    fun p x hx => Function.update_of_ne hx _ _
  rcases Lease.attach_run l t .runtime threads hpx with
    ⟨msg, hrun⟩ | ⟨l', t', hl', hrun⟩
  · -- refused: the constructor throws and the owner is as before
    rw [ho, hrun] at hs
    cases hs
    have hsame : ∀ x, (Function.update s.phase r .gone x).holds = (s.phase x).holds := by
      intro x
      by_cases hx : x = r
      · rw [hx, Function.update_self, hoff]
        rfl
      · rw [hother _ x hx]
    refine h.handOver h1 h2 ⟨l, t, rfl, ?_⟩ ?_
    · simp only [hsame]
      exact hl
    · simp only [hsame]
      exact h.single
  · -- admitted: nobody held the owner before
    rw [ho, hrun] at hs
    cases hs
    have hfree : l.holder = none := by
      by_contra hne
      rw [Lease.attach, if_neg hne] at hl'
      cases hl'
    have hnobody : ∀ x, (s.phase x).holds = false := by
      intro x
      by_contra hx
      have hh := hl.mpr ⟨x, (Bool.not_eq_false _).mp hx⟩
      rw [hfree] at hh
      cases hh
    have honly : ∀ x, (Function.update s.phase r .attached x).holds = true → x = r := by
      intro x hx
      by_contra hne
      rw [hother _ x hne, hnobody x] at hx
      cases hx
    refine h.handOver h1 h2 ⟨l', t', rfl, ?_⟩ ?_
    · rw [Lease.attach, if_pos hfree] at hl'
      cases hl'
      refine iff_of_true rfl ⟨r, ?_⟩
      rw [Function.update_self]
      rfl
    · exact fun a b ha hb => (honly a ha).trans (honly b hb).symm

/-- the calls of Engines and Endpoints neither give nor take the owner of a Runtime -/
theorem foreign_lease {l : Lease} {t : Int} {call : OwnerCall} (hf : call.foreign = true)
    (hpx : Except String Bool) : ∃ l' t', ((call.body (l.owner t)).run hpx).2.1 = Lease.owner l' t' ∧
      (l'.holder = some .runtime ↔ l.holder = some .runtime) := by
  cases call with
  | attach kind n =>
    rcases Lease.attach_run l t kind n hpx with ⟨msg, hr⟩ | ⟨l', t', hl', hr⟩
    · refine ⟨l, t, ?_, Iff.rfl⟩
      show ((RayX.attach kind n (l.owner t)).run hpx).2.1 = _
      rw [hr]
    · refine ⟨l', t', ?_, ?_⟩
      · show ((RayX.attach kind n (l.owner t)).run hpx).2.1 = _
        rw [hr]
      · cases kind with
        | runtime => cases hf
        | engine =>
          simp only [Lease.attach, Option.ite_none_right_eq_some, Option.some.injEq] at hl'
          obtain ⟨hfree, rfl⟩ := hl'
          rw [hfree.1]
          simp
        | endpoint =>
          simp only [Lease.attach] at hl'
          split at hl'
          · cases hl'
          · cases hl'
            exact Iff.rfl
  | detach kind =>
    refine ⟨l.detach kind, t, ?_, ?_⟩
    · show ((RayX.detach kind (l.owner t)).run hpx).2.1 = _
      rw [Lease.detach_run _ _ kind 0 hpx]
    · cases kind with
      | runtime => cases hf
      | engine =>
        simp only [Lease.detach]
        split
        · rename_i hh
          rw [hh]
          simp
        · exact Iff.rfl
      | endpoint => exact Iff.rfl
  | hpxActive => exact ⟨l, t, rfl, Iff.rfl⟩
  | endpointCount => exact ⟨l, t, rfl, Iff.rfl⟩

/-- **Every step keeps the gate.** -/
theorem Gate.step (h : Gate s) {a : Act} (hs : step s a = some s') : Gate s' := by
  cases a with
  | attach r threads hpx =>
    by_cases hr : s.phase r = .fresh
    · exact h.attach hr threads hpx hs
    · simp only [Bridge.step, if_neg hr] at hs
      cases hs
  | build r =>
    simp only [Bridge.step, Option.ite_none_right_eq_some, Option.some.injEq] at hs
    obtain ⟨hr, rfl⟩ := hs
    have h1 : s.phase r ≠ .live := hr.trans_ne RuntimePhase.noConfusion
    have h2 : s.phase r ≠ .draining := hr.trans_ne RuntimePhase.noConfusion
    exact h.move (by rw [hr]; rfl) rfl (fun x hx => h.unpublished h1 hx) rfl
      (fun c x hx he => absurd he (h.unheld h1 h2 hx))
  | buildFails r hpx =>
    simp only [Bridge.step, Option.ite_none_right_eq_some, Option.some.injEq] at hs
    obtain ⟨hr, rfl⟩ := hs
    exact h.detach (by rw [hr]; rfl) (hr.trans_ne RuntimePhase.noConfusion)
      (hr.trans_ne RuntimePhase.noConfusion) hpx
  | publish r =>
    simp only [Bridge.step, Option.ite_none_right_eq_some, Option.some.injEq] at hs
    obtain ⟨hr, rfl⟩ := hs
    refine h.move (by rw [hr]; rfl) rfl ?_ rfl (fun _ _ _ _ => Or.inl rfl)
    intro x hx
    cases hx
    exact Function.update_self _ _ _
  | drainBegin r =>
    simp only [Bridge.step, Option.ite_none_right_eq_some, Option.some.injEq] at hs
    obtain ⟨hr, rfl⟩ := hs
    refine h.move (by rw [hr]; rfl) rfl ?_ rfl (fun _ _ _ _ => Or.inr rfl)
    intro x hx
    cases hx
  | drainEnd r =>
    simp only [Bridge.step, Option.ite_none_right_eq_some, Option.some.injEq] at hs
    obtain ⟨⟨hr, h0⟩, rfl⟩ := hs
    have h1 : s.phase r ≠ .live := hr.trans_ne RuntimePhase.noConfusion
    have hnobody := count_zero (f := s.caller) (by rw [h.count, h0])
    refine h.move (by rw [hr]; rfl) rfl (fun x hx => h.unpublished h1 hx) rfl ?_
    intro c x hx
    rw [hnobody c] at hx
    cases hx
  | teardown r =>
    simp only [Bridge.step, Option.ite_none_right_eq_some, Option.some.injEq] at hs
    obtain ⟨hr, rfl⟩ := hs
    have h1 : s.phase r ≠ .live := hr.trans_ne RuntimePhase.noConfusion
    have h2 : s.phase r ≠ .draining := hr.trans_ne RuntimePhase.noConfusion
    exact h.move (by rw [hr]; rfl) rfl (fun x hx => h.unpublished h1 hx) rfl
      (fun c x hx he => absurd he (h.unheld h1 h2 hx))
  | detach r hpx =>
    simp only [Bridge.step, Option.ite_none_right_eq_some, Option.some.injEq] at hs
    obtain ⟨hr, rfl⟩ := hs
    exact h.detach (by rw [hr]; rfl) (hr.trans_ne RuntimePhase.noConfusion)
      (hr.trans_ne RuntimePhase.noConfusion) hpx
  | other call hpx =>
    simp only [Bridge.step, Option.ite_none_right_eq_some, Option.some.injEq] at hs
    obtain ⟨hf, rfl⟩ := hs
    obtain ⟨l, t, ho, hl⟩ := h.lease
    obtain ⟨l', t', ho', hl'⟩ := foreign_lease (l := l) (t := t) hf hpx
    refine { h with lease := ⟨l', t', ?_, hl'.trans hl⟩ }
    rw [ho]
    exact ho'
  | acquire c =>
    simp only [Bridge.step] at hs
    split at hs
    · rename_i r slot hc hacq
      cases hs
      unfold Slot.acquire at hacq
      split at hacq
      · cases hacq
      · rename_i r' hb
        cases hacq
        refine { h with count := ?_, held := ?_ }
        · show (holders (Function.update s.caller c _)).encard = ((s.slot.inFlight + 1 : Nat) : ℕ∞)
          exact count_take hc h.count
        · refine h.held_update ?_
          intro x hx
          cases hx
          exact Or.inl (h.published r hb)
    · rename_i st slot hc hacq
      cases hs
      unfold Slot.acquire at hacq
      split at hacq
      · cases hacq
        exact { h with }
      · cases hacq
    · cases hs
  | dispatch c throws =>
    simp only [Bridge.step] at hs
    split at hs
    · rename_i r hc
      cases hs
      refine { h with count := ?_, held := ?_ }
      · exact count_swap (by rw [hc]; exact Option.some_ne_none _) h.count
      · refine h.held_update ?_
        intro x hx
        cases hx
        exact h.held c (.holding r) hc
    · cases hs
  | release c =>
    simp only [Bridge.step] at hs
    split at hs
    · rename_i r threw hc
      cases hs
      obtain ⟨hpos, hgive⟩ := count_give (by rw [hc]; exact Option.some_ne_none _) h.count
      have hrel : s.slot.release = { s.slot with inFlight := s.slot.inFlight - 1 } := if_pos hpos
      rw [hrel]
      refine { h with count := ?_, held := ?_ }
      · exact hgive
      · refine h.held_update ?_
        intro x hx
        cases hx
    · cases hs

theorem gate_reach (h : Reach step {} s) : Gate s :=
  h.inv (fun _ _ _ hi hs => hi.step hs) gate_init

/-- only `publish` fills an empty slot -/
theorem unpublished_step {a : Act} (hs : step s a = some s') (hb : s.slot.bridge = none)
    (ha : ∀ r, a ≠ .publish r) : s'.slot.bridge = none := by
  have hacq : s.slot.acquire.2.bridge = none := by
    rw [Slot.acquire, hb]
    exact hb
  have hrel : s.slot.release.bridge = none := by
    unfold Slot.release
    split <;> exact hb
  cases a with
  | publish r => exact absurd rfl (ha r)
  | attach r threads hpx =>
    simp only [step, Option.ite_none_right_eq_some] at hs
    obtain ⟨_, hs⟩ := hs
    split at hs <;> cases hs <;> exact hb
  | acquire c =>
    simp only [step] at hs
    split at hs
    · rename_i hc hslot
      cases hs
      rw [hslot] at hacq
      exact hacq
    · rename_i hc hslot
      cases hs
      rw [hslot] at hacq
      exact hacq
    · cases hs
  | dispatch c throws =>
    simp only [step] at hs
    split at hs
    · cases hs
      exact hb
    · cases hs
  | release c =>
    simp only [step] at hs
    split at hs
    · cases hs
      exact hrel
    · cases hs
  | drainBegin r =>
    simp only [step, Option.ite_none_right_eq_some, Option.some.injEq] at hs
    obtain ⟨_, rfl⟩ := hs
    rfl
  | _ =>
    simp only [step, Option.ite_none_right_eq_some, Option.some.injEq] at hs
    obtain ⟨_, rfl⟩ := hs
    exact hb

/-- **The drain gate.**  `in_flight_` counts the callers between acquire and release, none of them
holds a Runtime whose drain has returned, and when a drain returns the slot is empty, without
callers, and refuses every acquire until the next publish. -/
theorem bridge_gate (h : Reach step {} s) :
    (holders s.caller).encard = s.slot.inFlight ∧
    (∀ c x, s.caller c = some x → s.phase x.engine = .live ∨ s.phase x.engine = .draining) ∧
    (∀ r s', step s (.drainEnd r) = some s' →
      s'.slot.inFlight = 0 ∧ s'.slot.bridge = none ∧
      ∀ acts s'', (∀ x, Act.publish x ∉ acts) → run step s' acts = some s'' →
        ∃ why, s''.slot.acquire.1 = .error why) := by
  have hg := gate_reach h
  refine ⟨hg.count, hg.held, ?_⟩
  intro r s' hs
  simp only [step, Option.ite_none_right_eq_some, Option.some.injEq] at hs
  obtain ⟨⟨hr, h0⟩, rfl⟩ := hs
  have hempty : s.slot.bridge = none := by
    by_contra hne
    obtain ⟨x, hx⟩ := Option.ne_none_iff_exists'.mp hne
    have hlive := hg.published x hx
    have hxr := hg.single x r (by rw [hlive]; rfl) (by rw [hr]; rfl)
    rw [hxr, hr] at hlive
    cases hlive
  refine ⟨h0, hempty, ?_⟩
  intro acts s'' hacts hrun
  have hC := stepsMeet_labels step (fun a => ∀ x, a ≠ Act.publish x)
    (s.setPhase r .drained) (fun a ha x he => hacts x (he ▸ ha))
  have hstill : s''.slot.bridge = none := by
    refine run_inv_of (P := fun s => s.slot.bridge = none) ?_ hrun hC hempty
    exact fun _ _ _ hb ha hs => unpublished_step hs hb ha
  refine ⟨if s''.slot.draining then .draining else .absent, ?_⟩
  rw [Slot.acquire, hstill]

/-- a caller dispatches through a Runtime that has begun to drain, a second caller is refused -/
def drainingRun : List Act :=
  [.attach 0 4 (.ok true), .build 0, .publish 0, .acquire 7, .drainBegin 0, .acquire 8]

theorem drainingRun_ends : ∃ s, run step {} drainingRun = some s ∧
    s.caller 7 = some (.holding 0) ∧ s.caller 8 = none ∧ s.slot.inFlight = 1 :=
  ⟨_, rfl, rfl, rfl, rfl⟩

theorem bridge_gate_draining : ∃ s, run step {} drainingRun = some s ∧
    (holders s.caller).encard = 1 ∧ (s.phase 0 = .live ∨ s.phase 0 = .draining) := by
  obtain ⟨s, hrun, h7, _, hone⟩ := drainingRun_ends
  obtain ⟨hcount, hheld, _⟩ := bridge_gate ⟨drainingRun, hrun⟩
  refine ⟨s, hrun, ?_, hheld 7 _ h7⟩
  rw [hcount, hone]
  rfl

end Bridge

end RayX
