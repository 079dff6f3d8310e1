import RayX.Facade.Chores
import RayX.Facade.Requests

/-!
# A Runtime comes to rest

The moves that a Runtime makes by itself: those of its lanes, of the driver inside `release_actor` and
`shutdown`, of the requests that the bridge has let in, and of a thread that has to set the promise of an
item that it has cancelled.

* `Paced`             the driver's lists of chores fit the lanes, in every reachable state;
* `measure`           what is left to do: the chores, the first of them, what the requests and the
                      canceller have to do, the work of the lanes;
* `own_less`          **every such move lowers it**;
* `Served.rests`      **a state in which none is enabled has the driver in Python, no request and every
                      future resolved**;
* `runtime_settles`   **whatever the scheduler does, every call returns and every future resolves**.
-/

namespace RayX
open Sys

namespace Engine
variable {e e' : Engine} {k : Nat} {al : ActorLane}

/-- the lane of actor number `k` -/
def laneAt (e : Engine) (k : Nat) : Option (Lane ActorState) := (e.lanes[k]?).map ActorLane.lane

/-- the driver is in the teardown -/
def busy (e : Engine) : Nat :=
  match e.driver with
  | .idle => 0
  | _ => 1

theorem laneAt_set (hk : e.lanes[k]? = some al) {l : Lane ActorState}
    (h : e'.lanes = e.lanes.set k { al with lane := l }) : e'.laneAt k = some l := by
  unfold laneAt
  rw [h, List.getElem?_set_self (List.getElem?_eq_some_iff.mp hk).1]
  rfl

theorem laneAt_set_ne {j : Nat} {al' : ActorLane} (h : e'.lanes = e.lanes.set k al') (hj : j ≠ k) :
    e'.laneAt j = e.laneAt j := by
  unfold laneAt
  rw [h, List.getElem?_set_ne (Ne.symm hj)]

/-- **What the driver does in the teardown**: it does something about the first chore, or it has done
them all. -/
theorem drive_chore (hc : e.Consistent) {now : Int64} (h : e.step (.drive now) = some e') :
    (e.todo = [] ∧ e.busy = 1 ∧ e'.todo = [] ∧ e'.busy = 0 ∧ e'.lanes = e.lanes) ∨
      ∃ c rest al a more l, e.todo = c :: rest ∧ e'.todo = more ++ rest ∧ e'.busy = e.busy ∧
        e.lanes[c.lane]? = some al ∧ Facade.opChore now al.lane c = some (a, more) ∧
        al.lane.step a = some l ∧ e'.lanes = e.lanes.set c.lane { al with lane := l } := by
  have hchore : ∀ {resume c rest}, e.chore now resume c rest = some e' →
      ∃ al a more l, e.lanes[c.lane]? = some al ∧ Facade.opChore now al.lane c = some (a, more) ∧
        al.lane.step a = some l ∧
        e' = { e with lanes := e.lanes.set c.lane { al with lane := l },
                      driver := resume (more ++ rest) } := by
    intro resume c rest hs
    obtain ⟨al, hal, hs⟩ := Option.bind_eq_some_iff.mp hs
    obtain ⟨⟨a, more⟩, hnext, hs⟩ := Option.bind_eq_some_iff.mp hs
    obtain ⟨e₁, hl, rfl⟩ := Option.map_eq_some_iff.mp hs
    obtain ⟨al₀, l, hal₀, hstep, rfl⟩ := laneStep_spec hl
    rw [hal] at hal₀
    cases hal₀
    exact ⟨al, a, more, l, hal, Facade.next_opChore (hc.lanes c.lane al hal).2.serial hnext hstep,
      hstep, rfl⟩
  cases step_moves h with
  | raises ha _ => cases ha
  | released hd | emptied hd =>
    refine Or.inl ⟨?_, ?_, rfl, rfl, rfl⟩
    · rw [todo, hd]
    · rw [busy, hd]
  | tears hd hs | tearsAll hd hs =>
    obtain ⟨al, a, more, l, hal, hn, hst, rfl⟩ := hchore hs
    refine Or.inr ⟨_, _, al, a, more, l, ?_, rfl, ?_, hal, hn, hst, rfl⟩
    · rw [todo, hd]
    · rw [busy, busy, hd]

/-- the chores of the actors are taken up as those of the operation lanes are -/
theorem next_of_opChore {now : Int64} {l : Lane ActorState} {c : Chore} {a : RayX.Act ActorState}
    {more : List Chore} (hm : l.mode = .serialBlocking) (hf : c.Fits l)
    (hn : Facade.opChore now l c = some (a, more)) : c.next now l = some (a, more) := by
  cases c with
  | joining k =>
    have hst : l.stopper = .joining := by
      rcases hf with h | ⟨_, ha⟩
      · exact h
      · rw [hm] at ha
        cases ha
    simp only [Facade.opChore, hst, hm] at hn
    cases hn
    rfl
  | _ => exact hn

/-- **The driver in the teardown has a step to make, or a lane has.** -/
theorem drive_on (hc : e.Consistent) (hb : ∀ k l, e.laneAt k = some l → l.Born)
    (hf : Facade.Fitted e.laneAt e.todo) (hd : e.driver ≠ .idle) :
    (∃ e', e.step (.drive 0) = some e') ∨ ∃ k l, e.laneAt k = some l ∧ l.GoesOn := by
  have hchore : ∀ {resume c rest}, e.todo = c :: rest →
      (∃ e', e.chore 0 resume c rest = some e') ∨ ∃ k l, e.laneAt k = some l ∧ l.GoesOn := by
    intro resume c rest htodo
    obtain ⟨l, hget, hfit⟩ := hf.fits c (by rw [htodo]; exact List.mem_cons_self)
    obtain ⟨al, hal, rfl⟩ := Option.map_eq_some_iff.mp hget
    rcases Facade.opChore_on hfit (hb _ _ hget) with ⟨a, more, l', hn, hs⟩ | hon
    · have hnext := next_of_opChore (hc.lanes c.lane al hal).2.serial hfit hn
      have hl : ∃ e₁, e.laneStep c.lane a = some e₁ := by
        unfold Engine.laneStep
        rw [hal, Option.bind_some, hs]
        exact ⟨_, rfl⟩
      obtain ⟨e₁, hl⟩ := hl
      refine Or.inl ⟨{ e₁ with driver := resume (more ++ rest) }, ?_⟩
      unfold chore
      rw [hal, Option.bind_some, hnext, Option.bind_some]
      dsimp only
      rw [hl]
      rfl
    · exact Or.inr ⟨c.lane, al.lane, hget, hon⟩
  simp only [Engine.step]
  cases hdr : e.driver with
  | idle => exact absurd hdr hd
  | releasing id todo =>
    have htodo : e.todo = todo := by
      rw [Engine.todo, hdr]
    cases todo with
    | nil => exact Or.inl ⟨_, rfl⟩
    | cons c rest => exact hchore htodo
  | shuttingDown todo =>
    have htodo : e.todo = todo := by
      rw [Engine.todo, hdr]
    cases todo with
    | nil => exact Or.inl ⟨_, rfl⟩
    | cons c rest => exact hchore htodo

end Engine
namespace Facade
namespace Runtime
variable {cfg : RuntimeConfig} {rt rt' : Runtime} {m : Move} {p : Place} {l : Lane ActorState}

/-! ## the lists of the driver -/

/-- every lane is there, and the driver's side of it is the same -/
def CalmAt (rt rt' : Runtime) : Prop :=
  ∀ p l, rt.laneAt p = some l → ∃ l', rt'.laneAt p = some l' ∧ Lane.Calm l l'

theorem CalmAt.same (ho : rt'.ops = rt.ops) (he : rt'.engine.lanes = rt.engine.lanes) :
    CalmAt rt rt' := by
  intro p l hl
  refine ⟨l, ?_, Lane.Calm.refl l⟩
  cases p with
  | op k =>
    rw [← hl]
    exact congrArg (fun ops => ops[k]?) ho
  | actor k =>
    rw [← hl]
    exact congrArg (fun lanes => (lanes[k]?).map ActorLane.lane) he

theorem CalmAt.setOp {k : Nat} {l' : Lane ActorState} (hk : rt.ops[k]? = some l)
    (hc : Lane.Calm l l') (ho : rt'.ops = rt.ops.set k l')
    (he : rt'.engine.lanes = rt.engine.lanes) : CalmAt rt rt' := by
  intro p l₀ hp
  cases p with
  | op j =>
    show ∃ l', rt'.ops[j]? = some l' ∧ _
    rw [ho]
    by_cases hj : k = j
    · subst hj
      have hp' : rt.ops[k]? = some l₀ := hp
      rw [hk] at hp'
      cases hp'
      exact ⟨l', List.getElem?_set_self (List.getElem?_eq_some_iff.mp hk).1, hc⟩
    · exact ⟨l₀, (List.getElem?_set_ne hj).trans hp, Lane.Calm.refl l₀⟩
  | actor j =>
    refine ⟨l₀, ?_, Lane.Calm.refl l₀⟩
    rw [← hp]
    exact congrArg (fun lanes => (lanes[j]?).map ActorLane.lane) he

theorem CalmAt.stepLane {a : Act ActorState} (ha : a.free = true)
    (h : rt.stepLane p a = some rt') : CalmAt rt rt' := by
  obtain ⟨l₀, l₁, hl₀, hs, rfl⟩ := stepLane_spec h
  intro q l hq
  by_cases hpq : p = q
  · subst hpq
    rw [hl₀] at hq
    cases hq
    exact ⟨l₁, laneAt_setLane_self hl₀, Lane.calm_step ha hs⟩
  · exact ⟨l, (laneAt_setLane_ne hpq).trans hq, Lane.Calm.refl l⟩

theorem calm_pushOp (l : Lane ActorState) (e : OpEntry ActorState) (a : OpArgs) :
    Lane.Calm l (pushOp l e a) := ⟨rfl, rfl, rfl⟩

structure Paced (rt : Runtime) : Prop where
  actors : Fitted rt.engine.laneAt rt.engine.todo
  ops : Fitted (fun k => rt.ops[k]?) rt.opTodo
  unstopped : rt.inside = .draining ∨ rt.inside = .stoppingActors →
    ∀ (k : Nat) (l : Lane ActorState), rt.ops[k]? = some l → l.stopper = .idle
  debt : ∀ key, rt.cancelling = some key → ∃ l, rt.laneAt key.1 = some l

theorem paced_create (cfg : RuntimeConfig) : Paced (create cfg) where
  actors := fitted_nil _
  ops := fitted_nil _
  unstopped := fun h => by rcases h with h | h <;> cases h
  debt := fun _ h => by cases h

/-- a move that leaves the driver where it is -/
theorem Paced.calm (h : Paced rt) (hl : CalmAt rt rt') (hin : rt'.inside = rt.inside)
    (hd : rt'.engine.todo = rt.engine.todo) (hu : Untouched rt rt')
    (hdebt : ∀ key, rt'.cancelling = some key → ∃ l, rt'.laneAt key.1 = some l) : Paced rt' where
  actors := by
    rw [hd]
    exact h.actors.calm fun k l hk => hl (.actor k) l hk
  ops := by
    have htodo : rt'.opTodo = rt.opTodo := by
      unfold opTodo
      rw [hin]
    rw [htodo]
    exact h.ops.calm fun k l hk => hl (.op k) l hk
  unstopped := by
    rw [hin]
    intro hi k l' hk
    obtain ⟨l, hlk, _, hst⟩ := hu k l' hk
    exact hst.trans (h.unstopped hi k l hlk)
  debt := hdebt

/-- the debt stays on its lane -/
theorem Paced.debt_stays (h : Paced rt) (hs : Step rt m rt') (hc : rt'.cancelling = rt.cancelling)
    (key : Place × Nat) (hk : rt'.cancelling = some key) : ∃ l, rt'.laneAt key.1 = some l := by
  rw [hc] at hk
  obtain ⟨l, hl⟩ := h.debt key hk
  obtain ⟨l', hl', _⟩ := hs.evolves key.1 l hl
  exact ⟨l', hl'⟩

/-- the lane of a live actor is where the teardown takes it up -/
theorem Served.fresh (h : rt.Served) (hin : rt.inside = .python) {id : String} {record : ActorRecord}
    (hm : (id, record) ∈ rt.engine.actors) : ∃ l, rt.engine.laneAt record.lane = some l ∧
      l.pending = .idle ∧ l.stopper = .idle := by
  have hdr := h.guarded.phase.idle hin
  obtain ⟨al, hal, _⟩ := h.guarded.sound.consistent.owns _ hm
  refine ⟨al.lane, by rw [Engine.laneAt, hal]; rfl, ?_, ?_⟩
  · refine h.guarded.tended.idle_pending ?_ hal
    rw [Engine.todo, hdr]
  · rcases h.ready.fresh _ hm al hal with ht | hst
    · unfold Engine.tearing at ht
      rw [hdr] at ht
      exact ht.elim
    · exact hst

theorem Paced.step (h : Paced rt) (hv : rt.Served) (hs : Step rt m rt') : Paced rt' := by
  have hmove := hs
  have hsame : rt'.inside = rt.inside → rt'.engine = rt.engine → rt'.ops = rt.ops →
      rt'.cancelling = rt.cancelling → Paced rt' := by
    intro hin he ho hc
    refine h.calm (.same ho (by rw [he])) hin (by rw [he]) (.same ho) (h.debt_stays hmove hc)
  cases hs with
  | refused n => exact hsame rfl rfl rfl rfl
  | admitsOp _ _ _ _ hl _ =>
    exact h.calm (.setOp hl (calm_pushOp _ _ _) rfl rfl) rfl rfl (.push hl rfl) (h.debt_stays hmove rfl)
  | @creates _ _ _ _ st _ _ _ _ _ =>
    obtain ⟨c⟩ := st
    refine h.calm ?_ rfl rfl (.same rfl) (h.debt_stays hmove rfl)
    intro p l hp
    cases p with
    | op j => exact ⟨l, hp, Lane.Calm.refl l⟩
    | actor j =>
      obtain ⟨al, hal, rfl⟩ := laneAt_actor hp
      refine ⟨al.lane, ?_, Lane.Calm.refl _⟩
      show ((rt.engine.lanes ++ [_])[j]?).map ActorLane.lane = _
      rw [List.getElem?_append_left (List.getElem?_eq_some_iff.mp hal).1, hal]
      rfl
  | @admitsCall _ _ _ _ _ k c method al _ _ _ _ _ _ _ hl _ =>
    refine h.calm ?_ rfl rfl (.same rfl) (h.debt_stays hmove rfl)
    intro p l hp
    cases p with
    | op j => exact ⟨l, hp, Lane.Calm.refl l⟩
    | actor j =>
      obtain ⟨al', hal', rfl⟩ := laneAt_actor hp
      show ∃ l', ((rt.engine.lanes.set k (Engine.pushed al c method))[j]?).map ActorLane.lane =
        some l' ∧ _
      by_cases hj : k = j
      · subst hj
        rw [hl] at hal'
        cases hal'
        refine ⟨(Engine.pushed al c method).lane, ?_, rfl, rfl, rfl⟩
        rw [List.getElem?_set_self (List.getElem?_eq_some_iff.mp hl).1]
        rfl
      · refine ⟨al'.lane, ?_, Lane.Calm.refl _⟩
        rw [List.getElem?_set_ne hj, hal']
        rfl
  | @releases _ hd e hin hc hh hr hk he =>
    have hrun := hv.guarded.open_runs hc
    obtain ⟨record, hrec⟩ := Option.isSome_iff_exists.mp hk
    have hdr := hv.guarded.phase.idle hin
    simp only [Engine.step, hdr, hrun, hrec, if_true] at he
    cases he
    refine { actors := ?_, ops := fitted_nil _, unstopped := ?_, debt := h.debt_stays hmove rfl }
    · refine fitted_teardown (List.nodup_singleton _) ?_
      intro k hmem
      rw [List.mem_singleton.mp hmem]
      exact hv.fresh hin (mem_of_lookup hrec)
    · exact fun hi => by rcases hi with hi | hi <;> cases hi
  | @shuts e hin hc he =>
    have hrun := hv.guarded.open_runs hc
    have hdr := hv.guarded.phase.idle hin
    simp only [Engine.step, hdr, hrun, if_true] at he
    cases he
    refine { actors := ?_, ops := fitted_nil _, unstopped := ?_, debt := h.debt_stays hmove rfl }
    · refine fitted_teardown ?_ ?_
      · refine List.Nodup.map_on ?_ hv.guarded.tended.keys.of_map
        intro p hp q hq he
        exact hv.guarded.sound.consistent.owner_inj hv.guarded.tended hp hq he
      · intro k hmem
        obtain ⟨⟨id, record⟩, hp, rfl⟩ := List.mem_map.mp hmem
        exact hv.fresh hin hp
    · exact fun _ k l hk => (hv.records hc).running k l hk
  | reads _ _ _ => exact hsame rfl rfl rfl rfl
  | @cancels i f rt₁ hg hf hl =>
    refine h.calm (CalmAt.stepLane rfl hl :) (stepLane_frame hl).2.1 (stepLane_todo hl :)
      (Untouched.stepLane rfl hl :) ?_
    · intro key hkey
      obtain ⟨l₀, l₁, hl₀, _, rfl⟩ := stepLane_spec hl
      have hplace : key.1 = f.place := by
        have hkey' : (if (rt.token f.key).cancel.2 = .fulfil then some f.key else none) = some key :=
          hkey
        split at hkey'
        · cases hkey'
          rfl
        · cases hkey'
      rw [hplace]
      exact ⟨l₁, laneAt_setLane_self hl₀⟩
  | @cancelReturns q i now rt₁ hg hl =>
    exact h.calm (CalmAt.stepLane rfl hl :) (stepLane_frame hl).2.1 (stepLane_todo hl :)
      (Untouched.stepLane rfl hl :) (fun key hkey => by cases hkey)
  | @drives now e hin hd he =>
    refine { actors := ?_, ops := h.ops, unstopped := h.unstopped, debt := h.debt_stays hmove rfl }
    rcases Engine.drive_chore hv.guarded.sound.consistent he with ⟨_, _, hnil, _, _⟩ |
      ⟨c, rest, al, a, more, l, htodo, htodo', _, hal, hn, hst, hlanes⟩
    · show Fitted e.laneAt e.todo
      rw [hnil]
      exact fitted_nil _
    · show Fitted e.laneAt e.todo
      rw [htodo']
      have hfit := h.actors
      rw [htodo] at hfit
      have hat : rt.engine.laneAt c.lane = some al.lane := by
        rw [Engine.laneAt, hal]
        rfl
      exact (hfit.chore hat hn hst (Engine.laneAt_set hal hlanes)
        (fun k hk => Engine.laneAt_set_ne hlanes hk)).1
  | @released j now hin hd hg =>
    refine { actors := h.actors, ops := fitted_nil _, unstopped := ?_, debt := h.debt_stays hmove rfl }
    exact fun hi => by rcases hi with hi | hi <;> cases hi
  | unpublishes _ => exact hsame rfl rfl rfl rfl
  | drained hin _ _ _ =>
    refine { actors := h.actors, ops := fitted_nil _, unstopped := ?_, debt := h.debt_stays hmove rfl }
    exact fun _ => h.unstopped (Or.inl hin)
  | actorsGone hin hd =>
    refine { actors := h.actors, ops := ?_, unstopped := ?_, debt := h.debt_stays hmove rfl }
    · refine fitted_teardown List.nodup_range ?_
      intro k hk
      have hlt := List.mem_range.mp hk
      refine ⟨rt.ops[k], List.getElem?_eq_getElem hlt, ?_, ?_⟩
      · by_contra hne
        have hmem := hv.guarded.sweeps k _ (List.getElem?_eq_getElem hlt) hne
        unfold opTodo at hmem
        rw [hin] at hmem
        cases hmem
      · exact h.unstopped (Or.inr hin) k _ (List.getElem?_eq_getElem hlt)
    · exact fun hi => by rcases hi with hi | hi <;> cases hi
  | @chores now c todo l a rest l' hin hl hn hst =>
    refine { actors := h.actors, ops := ?_, unstopped := ?_, debt := h.debt_stays hmove rfl }
    · have hfit := h.ops
      rw [show rt.opTodo = c :: todo from by rw [opTodo, hin]] at hfit
      refine (hfit.chore hl hn hst ?_ ?_).1
      · exact List.getElem?_set_self (List.getElem?_eq_some_iff.mp hl).1
      · exact fun k hk => List.getElem?_set_ne (Ne.symm hk)
    · exact fun hi => by rcases hi with hi | hi <;> cases hi
  | returns hin hg =>
    refine { actors := h.actors, ops := fitted_nil _, unstopped := ?_, debt := h.debt_stays hmove rfl }
    exact fun hi => by rcases hi with hi | hi <;> cases hi
  | acquires _ => exact hsame rfl rfl rfl rfl
  | picks _ _ _ => exact hsame rfl rfl rfl rfl
  | enqueues _ hl _ =>
    exact h.calm (.setOp hl (calm_pushOp _ _ _) rfl rfl) rfl rfl (.push hl rfl) (h.debt_stays hmove rfl)
  | leaves _ => exact hsame rfl rfl rfl rfl
  | works hw hl =>
    have hf := stepLane_frame hl
    exact h.calm (.stepLane (works_free hw) hl) hf.2.1 (stepLane_todo hl)
      (.stepLane (works_free hw) hl) (h.debt_stays hmove hf.2.2.2.2.1)

/-! ## what is left to do -/

/-- the moves that the Runtime makes by itself -/
def own : Move → Bool
  | .cancelReturn _ => true
  | .drive _ => true
  | .bridged _ => true
  | .lane _ _ => true
  | _ => false

/-- the way of the driver back to Python, past `n` operation lanes -/
def way (n : Nat) : Inside → Nat
  | .python => 0
  | .releasing _ => 1
  | .draining => 4 * n + 3
  | .stoppingActors => 4 * n + 2
  | .stoppingOps todo => weights todo + 1

/-- `drain_and_unpublish` has still to come -/
def published (rt : Runtime) : Nat :=
  match rt.slot.bridge with
  | some _ => 1
  | none => 0

def ahead (rt : Runtime) : Nat :=
  way rt.ops.length rt.inside + rt.engine.busy + weights rt.engine.todo + rt.published

/-- what is left of the chores under way -/
def underway (rt : Runtime) : Nat :=
  headToil rt.engine.laneAt rt.engine.todo + headToil (fun k => rt.ops[k]?) rt.opTodo

def debt (rt : Runtime) : Nat :=
  match rt.cancelling with
  | some _ => 1
  | none => 0

/-- of the canceller and of the requests -/
def owes (rt : Runtime) : Nat := rt.debt + rt.toil

noncomputable def work (rt : Runtime) : Multiset Piece :=
  (rt.ops.map Lane.work).sum + (rt.engine.lanes.map fun al => al.lane.work).sum

noncomputable def measure (rt : Runtime) : Nat × Nat × Nat × Multiset Piece :=
  (rt.ahead, rt.underway, rt.owes, rt.work)

def Lower : Nat × Nat × Nat × Multiset Piece → Nat × Nat × Nat × Multiset Piece → Prop :=
  Prod.Lex (· < ·) (Prod.Lex (· < ·) (Prod.Lex (· < ·) Work.Less))

theorem lower_wf : WellFounded Lower :=
  Nat.lt_wfRel.wf.prod_lex (Nat.lt_wfRel.wf.prod_lex
    (Nat.lt_wfRel.wf.prod_lex Multiset.wellFounded_isDershowitzMannaLT))

theorem lower_ahead (h : rt'.ahead < rt.ahead) : Lower rt'.measure rt.measure := Prod.Lex.left _ _ h

/-- the driver comes closer to Python -/
theorem lower_way (he : rt'.engine = rt.engine) (hs : rt'.slot = rt.slot)
    (h : way rt'.ops.length rt'.inside < way rt.ops.length rt.inside) :
    Lower rt'.measure rt.measure := by
  refine lower_ahead ?_
  unfold ahead published
  rw [he, hs]
  exact Nat.add_lt_add_right (Nat.add_lt_add_right (Nat.add_lt_add_right h _) _) _

theorem lower_underway (h : rt'.ahead = rt.ahead) (hu : rt'.underway < rt.underway) :
    Lower rt'.measure rt.measure := by
  unfold measure
  rw [h]
  exact Prod.Lex.right _ (Prod.Lex.left _ _ hu)

theorem lower_owes (h : rt'.ahead = rt.ahead) (hu : rt'.underway = rt.underway)
    (ho : rt'.owes < rt.owes) : Lower rt'.measure rt.measure := by
  unfold measure
  rw [h, hu]
  exact Prod.Lex.right _ (Prod.Lex.right _ (Prod.Lex.left _ _ ho))

theorem lower_work (h : rt'.ahead = rt.ahead) (hu : rt'.underway = rt.underway)
    (ho : rt'.owes = rt.owes) (hw : Work.Less rt'.work rt.work) : Lower rt'.measure rt.measure := by
  unfold measure
  rw [h, hu, ho]
  exact Prod.Lex.right _ (Prod.Lex.right _ (Prod.Lex.right _ hw))

/-- a step of a lane leaves the driver where it is -/
theorem stepLane_ahead {a : Act ActorState} (h : rt.stepLane p a = some rt') :
    rt'.ahead = rt.ahead := by
  have hf := stepLane_frame h
  unfold ahead Engine.busy published
  rw [hf.2.1, (stepLane_lengths h).1, hf.2.2.2.2.2.1, stepLane_todo h, hf.2.2.2.1.1]

/-- .. and what moves no driver leaves the chores as they are -/
theorem underway_calm (hp : Paced rt) (hcalm : CalmAt rt rt') (hin : rt'.inside = rt.inside)
    (htodo : rt'.engine.todo = rt.engine.todo) : rt'.underway = rt.underway := by
  have hactors : headToil rt'.engine.laneAt rt.engine.todo =
      headToil rt.engine.laneAt rt.engine.todo :=
    headToil_calm hp.actors fun k l hk => hcalm (.actor k) l hk
  have hlanes : headToil (fun k => rt'.ops[k]?) rt.opTodo = headToil (fun k => rt.ops[k]?) rt.opTodo :=
    headToil_calm hp.ops fun k l hk => hcalm (.op k) l hk
  unfold underway
  rw [htodo, opTodo_congr hin, hactors, hlanes]

theorem stepLane_underway {a : Act ActorState} (hp : Paced rt) (ha : a.free = true)
    (h : rt.stepLane p a = some rt') : rt'.underway = rt.underway :=
  underway_calm hp (CalmAt.stepLane ha h) (stepLane_frame h).2.1 (stepLane_todo h)

theorem stepLane_work {a : Act ActorState} (hb : ∀ p l, rt.laneAt p = some l → l.Born)
    (hw : works a = true) (h : rt.stepLane p a = some rt') : Work.Less rt'.work rt.work := by
  obtain ⟨l, l', hl, hs, rfl⟩ := stepLane_spec h
  have hless := Lane.works_less (hb p l hl).wf hw hs
  cases p with
  | op k =>
    show Work.Less (((rt.ops.set k l').map Lane.work).sum + _) ((rt.ops.map Lane.work).sum + _)
    rw [add_comm, add_comm (rt.ops.map Lane.work).sum]
    exact Work.frame _ (Work.set hl hless)
  | actor k =>
    obtain ⟨al, hal, rfl⟩ := laneAt_actor hl
    have hset : (rt.setLane (.actor k) l').work = (rt.ops.map Lane.work).sum +
        ((rt.engine.lanes.set k { al with lane := l' }).map fun al => al.lane.work).sum := by
      simp only [work, setLane, hal]
    rw [hset]
    refine Work.frame _ ?_
    exact Work.set (f := fun al => al.lane.work) (y := { al with lane := l' }) hal hless

/-- a chore of the actors -/
theorem drives_less {now : Int64} {e : Engine} (hp : Paced rt) (hc : rt.engine.Consistent)
    (he : rt.engine.step (.drive now) = some e) :
    Lower (measure { rt with engine := e }) rt.measure := by
  rcases Engine.drive_chore hc he with ⟨hnil, hbusy, hnil', hbusy', _⟩ |
    ⟨c, rest, al, a, more, l, htodo, htodo', hbusy, hal, hn, hst, hlanes⟩
  · refine lower_ahead ?_
    unfold ahead
    rw [hbusy, hnil, hnil', hbusy']
    exact Nat.add_lt_add_right (Nat.add_lt_add_right (Nat.lt_succ_self _) _) _
  · have hfit := hp.actors
    rw [htodo] at hfit
    have hat : rt.engine.laneAt c.lane = some al.lane := by
      rw [Engine.laneAt, hal]
      rfl
    obtain ⟨_, hlt | ⟨heq, hlt⟩⟩ := hfit.chore hat hn hst (Engine.laneAt_set hal hlanes)
      (fun k hk => Engine.laneAt_set_ne hlanes hk)
    · refine lower_ahead ?_
      unfold ahead
      rw [htodo, htodo', hbusy]
      exact Nat.add_lt_add_right (Nat.add_lt_add_left hlt _) _
    · refine lower_underway ?_ ?_
      · unfold ahead
        rw [htodo, htodo', hbusy, heq]
        rfl
      · unfold underway
        rw [htodo, htodo']
        exact Nat.add_lt_add_right hlt _

theorem drive_less {now : Int64} (hp : Paced rt) (hc : rt.engine.Consistent)
    (h : rt.drive now = some rt') : Lower rt'.measure rt.measure := by
  unfold drive at h
  split at h
  · cases h
  · rename_i i hin
    split at h
    · split at h
      · cases h
        refine lower_way rfl rfl ?_
        rw [hin]
        exact Nat.zero_lt_one
      · cases h
    · obtain ⟨e, he, rfl⟩ := Option.map_eq_some_iff.mp h
      exact drives_less hp hc he
  · rename_i hin
    split at h
    · rename_i hb
      obtain ⟨r, hr⟩ := Option.isSome_iff_exists.mp hb
      cases h
      refine lower_ahead ?_
      unfold ahead published
      rw [hr]
      exact Nat.lt_succ_self _
    · split at h
      · cases h
        refine lower_way rfl rfl ?_
        rw [hin]
        exact Nat.lt_succ_self _
      · cases h
  · rename_i hin
    split at h
    · cases h
      refine lower_way rfl rfl ?_
      rw [hin]
      show weights (Engine.teardown (List.range rt.ops.length)) + 1 < 4 * rt.ops.length + 2
      rw [weights_teardown, List.length_range]
      exact Nat.lt_succ_self _
    · obtain ⟨e, he, rfl⟩ := Option.map_eq_some_iff.mp h
      exact drives_less hp hc he
  · rename_i hin
    split at h
    · cases h
      refine lower_way rfl rfl ?_
      rw [hin]
      exact Nat.succ_pos _
    · cases h
  · rename_i c todo hin
    obtain ⟨l, hl, h⟩ := Option.bind_eq_some_iff.mp h
    obtain ⟨⟨a, more⟩, hn, h⟩ := Option.bind_eq_some_iff.mp h
    obtain ⟨l', hs, rfl⟩ := Option.map_eq_some_iff.mp h
    have htodo : rt.opTodo = c :: todo := by
      rw [opTodo, hin]
    have hfit := hp.ops
    rw [htodo] at hfit
    have hself : (fun k => (rt.ops.set c.lane l')[k]?) c.lane = some l' :=
      List.getElem?_set_self (List.getElem?_eq_some_iff.mp hl).1
    obtain ⟨_, hlt | ⟨heq, hlt⟩⟩ :=
      hfit.chore hl hn hs hself (fun k hk => List.getElem?_set_ne (Ne.symm hk))
    · refine lower_way rfl rfl ?_
      rw [hin]
      exact Nat.add_lt_add_right hlt 1
    · refine lower_underway ?_ ?_
      · unfold ahead
        rw [hin]
        show weights (more ++ todo) + 1 + rt.engine.busy + _ + _ = _
        rw [heq]
        rfl
      · unfold underway
        rw [htodo]
        exact Nat.add_lt_add_left hlt _

/-- a request goes on -/
theorem bridged_less {i : Nat} (hp : Paced rt) (h : rt.bridged i = some rt') :
    Lower rt'.measure rt.measure := by
  have hlower : rt'.engine = rt.engine → rt'.inside = rt.inside → rt'.ops.length = rt.ops.length →
      rt'.slot.bridge = rt.slot.bridge → rt'.cancelling = rt.cancelling → CalmAt rt rt' →
      rt'.toil < rt.toil → Lower rt'.measure rt.measure := by
    intro he hin hlen hb hc hcalm htoil
    refine lower_owes ?_ (underway_calm hp hcalm hin (by rw [he])) ?_
    · unfold ahead published
      rw [he, hin, hlen, hb]
    · unfold owes debt
      rw [hc]
      exact Nat.add_lt_add_left htoil _
  have hleave : ∀ {c}, rt.requests[i]? = some c → rt.leave i = rt' → Lower rt'.measure rt.measure := by
    rintro c hi rfl
    exact hlower rfl rfl rfl (Slot.release_bridge _) rfl (.same rfl rfl) (toil_leave hi)
  obtain ⟨c, hi, h⟩ := Option.bind_eq_some_iff.mp h
  cases c with
  | acquired opId a =>
    dsimp only at h
    split at h
    · exact hleave hi (Option.some.inj h)
    · split at h
      · exact hleave hi (Option.some.inj h)
      · cases h
        exact hlower rfl rfl rfl rfl rfl (.same rfl rfl) (toil_set hi rfl (Nat.lt_succ_self 2))
  | picked k e a =>
    obtain ⟨l, hl, h⟩ := Option.bind_eq_some_iff.mp h
    obtain ⟨l', hs, rfl⟩ := Option.map_eq_some_iff.mp h
    cases Lane.step_sound hs with
    | submit _ =>
      exact hlower rfl rfl List.length_set rfl rfl (.setOp hl (calm_pushOp l e a) rfl rfl)
        (toil_set hi rfl (Nat.lt_succ_self 1))
  | waiting k j =>
    dsimp only at h
    split at h
    · cases h
    · exact hleave hi (Option.some.inj h)

/-- **Every move that the Runtime makes by itself leaves less to do.** -/
theorem own_less (hv : rt.Served) (hp : Paced rt) (hm : own m = true) (hs : rt.step m = some rt') :
    Lower rt'.measure rt.measure := by
  have hperform : rt.perform m = some rt' := by
    cases m with
    | cancelReturn now => exact hs
    | drive now => exact hs
    | bridged i => exact hs
    | lane p a => exact hs
    | _ => cases hm
  cases m with
  | cancelReturn now =>
    simp only [perform] at hperform
    split at hperform
    · rename_i q i hg
      obtain ⟨rt₁, hl, rfl⟩ := Option.map_eq_some_iff.mp hperform
      refine lower_owes (stepLane_ahead hl :) (stepLane_underway hp rfl hl :) ?_
      unfold owes debt toil
      rw [hg, (stepLane_frame hl).2.2.2.1.2]
      exact Nat.add_lt_add_right Nat.zero_lt_one _
    · cases hperform
  | drive now => exact drive_less hp hv.guarded.sound.consistent hperform
  | bridged i => exact bridged_less hp hperform
  | lane p a =>
    simp only [perform, Option.ite_none_right_eq_some] at hperform
    obtain ⟨hw, hl⟩ := hperform
    refine lower_work (stepLane_ahead hl) (stepLane_underway hp (works_free hw) hl) ?_
      (stepLane_work hv.guarded.sound.born hw hl)
    unfold owes debt toil
    rw [(stepLane_frame hl).2.2.2.2.1, (stepLane_frame hl).2.2.2.1.2]
  | _ => cases hm

/-! ## states in which nothing moves -/

/-- what a lane can do the Runtime can -/
theorem stepLane_total {a : Act ActorState} {l' : Lane ActorState} (hl : rt.laneAt p = some l)
    (ha : a.free = true) (hs : l.step a = some l') : ∃ rt', rt.stepLane p a = some rt' := by
  cases p with
  | op k =>
    have hl' : rt.ops[k]? = some l := hl
    simp only [stepLane, hl', Option.bind_some, hs, Option.map_some]
    exact ⟨_, rfl⟩
  | actor k =>
    obtain ⟨al, hal, rfl⟩ := laneAt_actor hl
    have hstep : rt.engine.laneStep k a =
        some { rt.engine with lanes := rt.engine.lanes.set k { al with lane := l' } } := by
      unfold Engine.laneStep
      rw [hal, Option.bind_some, hs]
      rfl
    simp only [stepLane, Engine.step, ha, if_true, hstep, Option.map_some]
    exact ⟨_, rfl⟩

/-- a lane that has a step to make keeps the Runtime going -/
theorem lane_moves_on (hl : rt.laneAt p = some l) (hon : l.GoesOn) : ¬ Rests step own rt := by
  obtain ⟨a, l', hw, hs⟩ := hon
  obtain ⟨rt', hrt⟩ := stepLane_total hl (works_free hw) hs
  intro hr
  have hnone : rt.perform (.lane p a) = none := hr (.lane p a) rfl
  rw [perform, if_pos hw, hrt] at hnone
  cases hnone

/-- the lanes of the operations are quiet, nobody owes a promise, and no chore is to come -/
theorem Served.op_paid (hv : rt.Served) (hg : rt.cancelling = none) (htodo : rt.opTodo = []) {k i : Nat}
    (hl : rt.ops[k]? = some l) (hq : l.Quiet) (hi : i < l.admitted.length) : ∃ r, l.prom i = [r] := by
  have hborn := hv.guarded.sound.born (.op k) l hl
  refine hborn.quiet_pays hq ?_ ?_ hi
  · by_contra hne
    have hmem := hv.guarded.sweeps k l hl hne
    rw [htodo] at hmem
    cases hmem
  · rw [hv.guarded.debts (.op k) l hl, owing_none hg]

/-- **Among quiet lanes a request goes on**: its lane takes the item, and the row that it waits for is
there. -/
theorem Served.requests_gone (hv : rt.Served) (hp : Paced rt) (hb : Bridged rt)
    (hg : rt.cancelling = none) (hquiet : ∀ p l, rt.laneAt p = some l → l.Quiet)
    (hr : Rests Runtime.step own rt) : rt.requests = [] := by
  by_contra hne
  have hlive := hb.live (Or.inr hne)
  have hpos := List.length_pos_iff.mpr hne
  have hi : rt.requests[0]? = some rt.requests[0] := List.getElem?_eq_getElem hpos
  have hplaced := hb.placed _ (List.getElem_mem hpos)
  have hstop : ¬ ∃ rt', rt.bridged 0 = some rt' := by
    rintro ⟨rt', hd⟩
    have hnone : rt.bridged 0 = none := hr (.bridged 0) rfl
    rw [hd] at hnone
    cases hnone
  refine hstop ?_
  cases hc : rt.requests[0] with
  | acquired opId a =>
    simp only [bridged, hi, hc, Option.bind_some]
    split
    · exact ⟨_, rfl⟩
    · split
      · exact ⟨_, rfl⟩
      · exact ⟨_, rfl⟩
  | picked k e a =>
    rw [hc] at hplaced
    have hl : rt.ops[k]? = some rt.ops[k] := List.getElem?_eq_getElem hplaced
    have hidle : rt.ops[k].stopper = .idle := by
      rcases hlive with hopen | hdraining
      · exact (hv.records hopen).running k _ hl
      · exact hp.unstopped (Or.inl hdraining) k _ hl
    have hrunning := (hv.guarded.sound.born (.op k) _ hl).running hidle
    simp only [bridged, hi, hc, Option.bind_some, hl, step_push hrunning, Option.map_some]
    exact ⟨_, rfl⟩
  | waiting k i =>
    rw [hc] at hplaced
    obtain ⟨l, hl, hlt⟩ := hplaced
    obtain ⟨r, hprom⟩ := hv.op_paid hg (hlive.todo hv.guarded.phase) hl (hquiet (.op k) l hl) hlt
    have hset : rt.promise (.op k, i) = [r] := by
      unfold promise
      rw [show rt.laneAt (Place.op k, i).1 = some l from hl]
      exact hprom
    simp only [bridged, hi, hc, Option.bind_some, hset]
    exact ⟨_, rfl⟩

/-- the driver can go on, or a lane can -/
theorem drive_moves_on (hv : rt.Served) (hp : Paced rt) (hb : Bridged rt) (hin : rt.inside ≠ .python)
    (hg : rt.cancelling = none) (hreq : rt.requests = []) : ¬ Rests step own rt := by
  have hstop : (∃ rt', rt.drive 0 = some rt') → ¬ Rests step own rt := by
    rintro ⟨rt', hd⟩ hr
    have hnone : rt.drive 0 = none := hr (.drive 0) rfl
    rw [hd] at hnone
    cases hnone
  -- the driver in the teardown of actors
  have hengine : (rt.engine.driver ≠ .idle → ∀ e, rt.engine.step (.drive 0) = some e →
      rt.drive 0 = some { rt with engine := e }) → rt.engine.driver ≠ .idle → ¬ Rests step own rt := by
    intro hdrive hd
    rcases Engine.drive_on hv.guarded.sound.consistent
      (fun k l hl => hv.guarded.sound.born (.actor k) l hl) hp.actors hd with ⟨e, he⟩ | ⟨k, l, hl, hon⟩
    · exact hstop ⟨_, hdrive hd e he⟩
    · exact lane_moves_on (p := .actor k) hl hon
  cases hi : rt.inside with
  | python => exact absurd hi hin
  | releasing i =>
    by_cases hd : rt.engine.driver = .idle
    · refine hstop ?_
      simp only [drive, hi, hd, hg, if_true]
      exact ⟨_, rfl⟩
    · refine hengine ?_ hd
      intro _ e he
      simp only [drive, hi, he, Option.map_some]
  | draining =>
    refine hstop ?_
    have hzero : rt.slot.inFlight = 0 := by
      rw [hb.count, hreq]
      rfl
    simp only [drive, hi, hzero, hg, and_self, if_true]
    split
    · exact ⟨_, rfl⟩
    · exact ⟨_, rfl⟩
  | stoppingActors =>
    by_cases hd : rt.engine.driver = .idle
    · refine hstop ?_
      simp only [drive, hi, hd]
      exact ⟨_, rfl⟩
    · refine hengine ?_ hd
      intro _ e he
      simp only [drive, hi, he, Option.map_some]
  | stoppingOps todo =>
    cases todo with
    | nil =>
      refine hstop ?_
      simp only [drive, hi, hg, if_true]
      exact ⟨_, rfl⟩
    | cons c todo =>
      have hfit := hp.ops
      rw [show rt.opTodo = c :: todo from by rw [opTodo, hi]] at hfit
      obtain ⟨l, hl, hf⟩ := hfit.fits c List.mem_cons_self
      have hl' : rt.ops[c.lane]? = some l := hl
      rcases opChore_on hf (hv.guarded.sound.born (.op c.lane) l hl) with ⟨a, more, l', hn, hs⟩ | hon
      · refine hstop ?_
        simp only [drive, hi, hl', Option.bind_some, hn, hs, Option.map_some]
        exact ⟨_, rfl⟩
      · exact lane_moves_on (p := .op c.lane) hl hon

/-- **Where nothing moves, everything is done**: the driver is in Python, nobody owes a promise, no request
is under way, and every lane is quiet. -/
theorem Served.rests (hv : rt.Served) (hp : Paced rt) (hb : Bridged rt)
    (hr : Rests Runtime.step own rt) : rt.inside = .python ∧ rt.cancelling = none ∧
      rt.requests = [] ∧ ∀ p l, rt.laneAt p = some l → l.Quiet := by
  have hg : rt.cancelling = none := by
    cases hc : rt.cancelling with
    | none => rfl
    | some key =>
      obtain ⟨q, i⟩ := key
      obtain ⟨l, hl⟩ := hp.debt (q, i) hc
      have hdebt : l.cancelling = [i] := by
        rw [hv.guarded.debts q l hl, owing, hc]
        exact if_pos rfl
      have hs : ∃ l', l.step (.cancelFulfil i 0) = some l' := by
        simp only [Lane.step, hdebt]
        exact ⟨_, if_pos List.mem_cons_self⟩
      obtain ⟨l', hs⟩ := hs
      obtain ⟨rt', hrt⟩ := stepLane_total hl rfl hs
      have hnone : rt.perform (.cancelReturn 0) = none := hr (.cancelReturn 0) rfl
      simp only [perform, hc, hrt] at hnone
      cases hnone
  have hquiet : ∀ p l, rt.laneAt p = some l → l.Quiet := by
    intro p l hl
    rcases (hv.guarded.sound.born p l hl).goes_on with hq | hon
    · exact hq
    · exact absurd hr (lane_moves_on hl hon)
  have hreq := hv.requests_gone hp hb hg hquiet hr
  refine ⟨?_, hg, hreq, hquiet⟩
  by_contra hin
  exact drive_moves_on hv hp hb hin hg hreq hr

/-- what the way to the end rests on, in every reachable state -/
structure Settling (rt : Runtime) : Prop where
  served : rt.Served
  paced : Paced rt
  bridged : Bridged rt

theorem settling_create (cfg : RuntimeConfig) : Settling (create cfg) :=
  ⟨served_create cfg, paced_create cfg, bridged_create cfg⟩

theorem Settling.step (h : Settling rt) (hs : rt.step m = some rt') : Settling rt' := by
  have hmove := step_sound hs
  exact ⟨h.served.step hmove, h.paced.step h.served hmove, h.bridged.step h.served hmove⟩

/-- a move that the Runtime makes by itself makes no future and changes none -/
theorem own_futures (hm : own m = true) (hs : rt.step m = some rt') :
    rt'.futures = rt.futures ∧ rt'.closed = rt.closed := by
  have hstep := step_sound hs
  cases hstep with
  | refused _ => exact ⟨rfl, rfl⟩
  | cancelReturns _ hl => exact ⟨(stepLane_futures hl :), (stepLane_frame hl :).1⟩
  | drives _ _ _ => exact ⟨rfl, rfl⟩
  | released _ _ _ => exact ⟨rfl, rfl⟩
  | unpublishes _ => exact ⟨rfl, rfl⟩
  | drained _ _ _ _ => exact ⟨rfl, rfl⟩
  | picks _ _ _ => exact ⟨rfl, rfl⟩
  | enqueues _ _ _ => exact ⟨rfl, rfl⟩
  | leaves _ => exact ⟨rfl, rfl⟩
  | actorsGone _ _ => exact ⟨rfl, rfl⟩
  | chores _ _ _ _ => exact ⟨rfl, rfl⟩
  | returns _ _ => exact ⟨rfl, rfl⟩
  | works _ hl => exact ⟨stepLane_futures hl, (stepLane_frame hl).1⟩
  | _ => cases hm

theorem own_run {as : List Move} (hm : Own own as) (h : run step rt as = some rt') :
    rt'.futures = rt.futures ∧ rt'.closed = rt.closed := by
  induction as generalizing rt with
  | nil =>
    cases h
    exact ⟨rfl, rfl⟩
  | cons m as ih =>
    obtain ⟨rt₁, hs, hrun⟩ := run_cons.mp h
    have h₁ := own_futures (hm m List.mem_cons_self) hs
    have h₂ := ih (fun b hb => hm b (List.mem_cons_of_mem m hb)) hrun
    exact ⟨h₂.1.trans h₁.1, h₂.2.trans h₁.2⟩

/-- where nothing moves every future is resolved -/
theorem Settling.resolved (h : Settling rt) (hr : Rests Runtime.step own rt)
    {f : RuntimeFuture} (hf : f ∈ rt.futures) : ∃ r, rt.promise f.key = [r] := by
  have hv := h.served
  obtain ⟨hin, hg, _, hquiet⟩ := hv.rests h.paced h.bridged hr
  obtain ⟨l, it, hl, hi, _⟩ := hv.guarded.sound.stands f hf
  have hlt := (List.getElem?_eq_some_iff.mp hi).1
  have hpaid : ∃ r, l.prom f.id = [r] := by
    cases hplace : f.place with
    | op k =>
      rw [hplace] at hl
      refine hv.op_paid hg ?_ hl (hquiet _ l hl) hlt
      rw [opTodo, hin]
    | actor k =>
      rw [hplace] at hl
      obtain ⟨al, hal, rfl⟩ := laneAt_actor hl
      refine (hv.guarded.sound.born _ _ hl).quiet_pays (hquiet _ _ hl) ?_ ?_ hlt
      · refine hv.guarded.tended.idle_pending ?_ hal
        rw [Engine.todo, hv.guarded.phase.idle hin]
      · rw [hv.guarded.debts _ _ hl, owing_none hg]
  obtain ⟨r, hr⟩ := hpaid
  refine ⟨r, ?_⟩
  unfold promise
  rw [show rt.laneAt f.key.1 = some l from hl]
  exact hr

/-- **A Runtime comes to rest.**  From every reachable state the moves that it makes by itself, in
whatever order, come to an end, and where they end `release_actor()` and `shutdown()` have returned,
no `cancel()` and no request of the bridge is under way, and every future is resolved. -/
theorem runtime_settles (h : Reach step (create cfg) rt) :
    ¬ Endless step own rt ∧
      (∃ as rt', Own own as ∧ run step rt as = some rt' ∧ Rests step own rt') ∧
      ∀ as rt', Own own as → run step rt as = some rt' → Rests step own rt' →
        rt'.inPython = true ∧ rt'.cancelling = none ∧ rt'.requests = [] ∧ rt'.closed = rt.closed ∧
          rt'.futures = rt.futures ∧ (∀ f ∈ rt.futures, ∃ r, rt'.promise f.key = [r]) ∧
          ∀ (i : Nat) f, rt.futures[i]? = some f → ∀ recvNs, (rt'.result i recvNs).isSome = true := by
  have hI : ∀ s m s', Settling s → step s m = some s' → Settling s' := fun _ _ _ hi hs => hi.step hs
  have hμ : ∀ s m s', Settling s → own m = true → step s m = some s' →
      Lower s'.measure s.measure := fun _ _ _ hi hm hs => own_less hi.served hi.paced hm hs
  have h₀ : Settling rt := h.inv (P := Settling) hI (settling_create cfg)
  refine ⟨not_endless lower_wf hI hμ h₀, comes_to_rest lower_wf hI hμ h₀, ?_⟩
  intro as rt' hown hrun hrests
  have hi : Settling rt' := run_inv hI hrun h₀
  obtain ⟨hfut, hclosed⟩ := own_run hown hrun
  obtain ⟨hin, hg, hreq, _⟩ := hi.served.rests hi.paced hi.bridged hrests
  have hres : ∀ f ∈ rt.futures, ∃ r, rt'.promise f.key = [r] := by
    intro f hf
    rw [← hfut] at hf
    exact hi.resolved hrests hf
  refine ⟨?_, hg, hreq, hclosed, hfut, hres, ?_⟩
  · unfold inPython
    rw [hin]
  · intro i f hf recvNs
    rw [← hfut] at hf
    exact result_returns hf (hres f (by rw [← hfut]; exact List.mem_of_getElem? hf)) recvNs

/-- `shutdown()` while a request waits for its row, and an operation is queued behind it -/
def drainMoves : List Move :=
  [.bridge "square" [.int64 4], .bridged 0, .bridged 0, .submitOperation (.str "square") [.int 3] 0,
    .shutdown, .drive 1]

theorem drainMoves_wait : ∃ rt, run step (create serialConfig) drainMoves = some rt ∧
    rt.inPython = false ∧ rt.requests.length = 1 ∧ rt.futures.length = 1 ∧ rt.drive 2 = none :=
  ⟨_, rfl, rfl, rfl, rfl, rfl⟩

/-- the driver waits for the request, and still comes back -/
theorem runtime_settles_drain : ∃ rt, run step (create serialConfig) drainMoves = some rt ∧
    rt.requests.length = 1 ∧ rt.drive 2 = none ∧ ¬ Endless step own rt ∧
      ∃ as rt', Own own as ∧ run step rt as = some rt' ∧ rt'.inPython = true ∧ rt'.requests = [] ∧
        ∀ f ∈ rt.futures, ∃ r, rt'.promise f.key = [r] := by
  obtain ⟨rt, hrun, _, hlen, _, hwait⟩ := drainMoves_wait
  have h : Reach step (create serialConfig) rt := ⟨drainMoves, hrun⟩
  obtain ⟨hend, ⟨as, rt', hown, hrun', hrests⟩, hall⟩ := runtime_settles h
  obtain ⟨hin, _, hreq, _, _, hres, _⟩ := hall as rt' hown hrun' hrests
  exact ⟨rt, hrun, hlen, hwait, hend, as, rt', hown, hrun', hin, hreq, hres⟩

end Runtime
end Facade
end RayX
