import RayX.Facade.Contract

/-!
# The teardown of a lane

`cancel_pending` and `stop_and_join` of the lanes that `release_actor` and `shutdown` go through, on
the list of chores that the driver has still to do.

* `Lane.Over`       the lane is joined, and every promise of it is set;
* `opChore_spec`    what a chore does to the lane: the list of chores says how far the lane is;
* `Engine.Tended`   the lanes of the actors and the chores of the driver fit;
* `Tended.step`     **every step of the engine keeps that**.
-/

namespace RayX
open Sys

/-! ## a lane that is over -/

namespace Lane
variable {σ : Type} {s s' : Lane σ} {a : Act σ}

/-- the lane is joined, and every promise is set -/
def Over (s : Lane σ) : Prop :=
  s.stopper = .returned ∧ ∀ i, i < s.admitted.length → ∃ r, s.prom i = [r]

theorem Over.step (h : s.Over) (hb : s.Born) (hs : s.step a = some s') : s'.Over := by
  obtain ⟨hret, hset⟩ := h
  have hstop : s.stop = true := (hb.wf.exited (hb.wf.joined (Or.inr hret))).1
  have hkeep : s'.stopper = .returned → s'.admitted = s.admitted → s'.Over := by
    intro hret' hadm
    refine ⟨hret', ?_⟩
    intro i hi
    rw [hadm] at hi
    obtain ⟨r, hr⟩ := hset i hi
    exact ⟨r, hb.settled hs hr⟩
  have hno : s.stop = false → s'.Over := by
    intro hf
    rw [hf] at hstop
    cases hstop
  cases step_sound hs with
  | submit hf => exact hno hf
  | accept hf _ => exact hno hf
  | reject hf _ => exact hno hf
  | stopBegin hi =>
    rw [hret] at hi
    cases hi
  | join hi _ =>
    rw [hret] at hi
    cases hi
  | awaitInflight _ _ => exact hkeep rfl rfl
  | _ => exact hkeep hret rfl

/-- `stop_and_join` and the sweep are over, and nobody owes a `set_value` -/
theorem Born.over (h : s.Born) (hr : s.stopper = .returned) (hp : s.pending = .idle)
    (hc : s.cancelling = []) : s.Over := by
  refine ⟨hr, ?_⟩
  intro i hi
  have hloc : (view i s).loc = .retired := h.wf.returned_loc hr hi
  have hpaid : (s.prom i).length + s.owed i = 1 :=
    ((h.once i).done (by rw [hloc]; rfl)).2
  have howed : s.owed i = 0 := by
    rw [owed, hc, hp]
    rfl
  rw [howed, Nat.add_zero] at hpaid
  exact List.length_eq_one_iff.mp hpaid

/-- the driver's side of a lane: who cancels and who stops it -/
theorem works_frame {s s' : Lane ActorState} {a : Act ActorState} (hw : a.free = true)
    (hs : s.step a = some s') : s'.pending = s.pending ∧ s'.stopper = s.stopper := by
  cases step_sound hs with
  | submit _ => cases hw
  | accept _ _ => cases hw
  | collect _ => cases hw
  | cpCancel _ => cases hw
  | cpFulfil _ => cases hw
  | cpReturn _ => cases hw
  | stopBegin _ => cases hw
  | join _ _ => cases hw
  | awaitInflight _ _ => cases hw
  | _ => exact ⟨rfl, rfl⟩

end Lane

/-! ## chores -/

/-- the sweep of a lane that is under way is on the list -/
def Sweeps (todo : List Chore) (k : Nat) (l : Lane ActorState) : Prop :=
  l.pending ≠ .idle → .sweeping k ∈ todo

/-- a lane that is not joined yet is on the list -/
def Joins (todo : List Chore) (k : Nat) (l : Lane ActorState) : Prop :=
  l.stopper = .returned ∨ .stopAndJoin k ∈ todo ∨ .joining k ∈ todo

/-- a chore of another lane -/
theorem Sweeps.other {c : Chore} {rest todo : List Chore} {k : Nat} {l : Lane ActorState}
    (h : Sweeps (c :: todo) k l) (hk : c.lane ≠ k) : Sweeps (rest ++ todo) k l := by
  intro hne
  rcases List.mem_cons.mp (h hne) with he | hmem
  · rw [← he] at hk
    exact absurd rfl hk
  · exact List.mem_append_right _ hmem

theorem Joins.other {c : Chore} {rest todo : List Chore} {k : Nat} {l : Lane ActorState}
    (h : Joins (c :: todo) k l) (hk : c.lane ≠ k) : Joins (rest ++ todo) k l := by
  rcases h with h | h | h
  · exact Or.inl h
  · rcases List.mem_cons.mp h with he | hmem
    · rw [← he] at hk
      exact absurd rfl hk
    · exact Or.inr (Or.inl (List.mem_append_right _ hmem))
  · rcases List.mem_cons.mp h with he | hmem
    · rw [← he] at hk
      exact absurd rfl hk
    · exact Or.inr (Or.inr (List.mem_append_right _ hmem))

namespace Facade

/-- **What a chore does**: the sweep and the stop of its lane go on, or it is done with one of the
two. -/
theorem opChore_spec (todo : List Chore) {now : Int64} {l l' : Lane ActorState} {c : Chore}
    {a : Act ActorState} {rest : List Chore} (hn : opChore now l c = some (a, rest)) (hs : l.step a = some l') :
    l'.cancelling = l.cancelling ∧
    (Sweeps (c :: todo) c.lane l → Sweeps (rest ++ todo) c.lane l') ∧
    (Joins (c :: todo) c.lane l → Joins (rest ++ todo) c.lane l') := by
  -- what stays on the list when the chore is neither a sweep or a stop of this lane
  have hsweep : (∀ k, c ≠ .sweeping k) → l'.pending = l.pending →
      Sweeps (c :: todo) c.lane l → Sweeps (rest ++ todo) c.lane l' := by
    intro hc hp h hne
    rw [hp] at hne
    rcases List.mem_cons.mp (h hne) with he | hmem
    · exact absurd he.symm (hc _)
    · exact List.mem_append_right _ hmem
  have hjoin : (∀ k, c ≠ .stopAndJoin k) → (∀ k, c ≠ .joining k) → l'.stopper = l.stopper →
      Joins (c :: todo) c.lane l → Joins (rest ++ todo) c.lane l' := by
    intro hc hc' hst h
    rcases h with h | h | h
    · exact Or.inl (hst.trans h)
    · rcases List.mem_cons.mp h with he | hmem
      · exact absurd he.symm (hc _)
      · exact Or.inr (Or.inl (List.mem_append_right _ hmem))
    · rcases List.mem_cons.mp h with he | hmem
      · exact absurd he.symm (hc' _)
      · exact Or.inr (Or.inr (List.mem_append_right _ hmem))
  cases c with
  | cancelPending k =>
    cases hn
    cases Lane.step_sound hs with
    | collect hp =>
      exact ⟨rfl, fun _ _ => List.mem_cons_self,
        hjoin (fun _ => Chore.noConfusion) (fun _ => Chore.noConfusion) rfl⟩
  | sweeping k =>
    have hj : l'.stopper = l.stopper → Joins (.sweeping k :: todo) k l → Joins (rest ++ todo) k l' :=
      hjoin (fun _ => Chore.noConfusion) (fun _ => Chore.noConfusion)
    simp only [opChore, Chore.next] at hn
    split at hn
    · cases hn
      cases Lane.step_sound hs with
      | cpCancel hp => exact ⟨rfl, fun _ _ => List.mem_cons_self, hj rfl⟩
    · cases hn
      cases Lane.step_sound hs with
      | cpFulfil hp => exact ⟨rfl, fun _ _ => List.mem_cons_self, hj rfl⟩
    · cases hn
      cases Lane.step_sound hs with
      | cpReturn hp => exact ⟨rfl, fun _ hne => absurd rfl hne, hj rfl⟩
    · cases hn
  | stopAndJoin k =>
    cases hn
    cases Lane.step_sound hs with
    | stopBegin hst =>
      exact ⟨rfl, hsweep (fun _ => Chore.noConfusion) rfl,
        fun _ => Or.inr (Or.inr List.mem_cons_self)⟩
  | joining k =>
    have hw : l'.pending = l.pending → Sweeps (.joining k :: todo) k l → Sweeps (rest ++ todo) k l' :=
      hsweep (fun _ => Chore.noConfusion)
    simp only [opChore] at hn
    split at hn
    · cases hn
      cases Lane.step_sound hs with
      | join hst hc =>
        refine ⟨rfl, hw rfl, ?_⟩
        intro _
        by_cases hm : l.mode = .asyncNonBlocking
        · rw [if_pos hm]
          exact Or.inr (Or.inr List.mem_cons_self)
        · exact Or.inl (if_neg hm)
    · cases hn
      cases Lane.step_sound hs with
      | awaitInflight hst hi => exact ⟨rfl, hw rfl, fun _ => Or.inl rfl⟩
    · cases hn

/-- on a serial lane the chores of the actors are those of the operation lanes -/
theorem next_opChore {now : Int64} {l l' : Lane ActorState} {c : Chore} {a : Act ActorState}
    {rest : List Chore} (hm : l.mode = .serialBlocking) (hn : c.next now l = some (a, rest))
    (hs : l.step a = some l') : opChore now l c = some (a, rest) := by
  cases c with
  | joining k =>
    cases hn
    cases Lane.step_sound hs with
    | join hst hc =>
      simp only [opChore, hst, hm]
      rfl
  | _ => exact hn

end Facade

/-! ## the lanes of the actors -/

namespace Engine
variable {e e' : Engine} {k : Nat} {al : ActorLane}

/-- the chores that the driver has still to do -/
def todo (e : Engine) : List Chore :=
  match e.driver with
  | .idle => []
  | .releasing _ todo => todo
  | .shuttingDown todo => todo

/-- the driver is taking down the lane of this actor -/
def tearing (e : Engine) (id : String) : Prop :=
  match e.driver with
  | .idle => False
  | .releasing id' _ => id' = id
  | .shuttingDown _ => True

/-- the ids of the actors are distinct, and a lane that no actor owns is joined -/
structure Tended (e : Engine) : Prop where
  keys : (e.actors.map Prod.fst).Nodup
  sweeps : ∀ k (al : ActorLane), e.lanes[k]? = some al → Sweeps e.todo k al.lane
  torn : ∀ k (al : ActorLane), e.lanes[k]? = some al → al.lane.stopper = .returned ∨
    ∃ p ∈ e.actors, p.2.lane = k ∧ (e.tearing p.1 → Joins e.todo k al.lane)

theorem tended_create (maxQd : Int) : Tended (create maxQd) where
  keys := List.nodup_nil
  sweeps := by simp [create]
  torn := by simp [create]

theorem mem_teardown {ks : List Nat} (h : k ∈ ks) : Chore.stopAndJoin k ∈ teardown ks :=
  List.mem_append_right _ (List.mem_map_of_mem h)

theorem Tended.idle_pending (h : Tended e) (hd : e.todo = []) (hk : e.lanes[k]? = some al) :
    al.lane.pending = .idle := by
  by_contra hne
  have hmem := h.sweeps k al hk hne
  rw [hd] at hmem
  cases hmem

/-- the lanes may move as long as the driver's side of them stays -/
theorem Tended.moves (h : Tended e) (ha : e'.actors = e.actors) (hd : e'.driver = e.driver)
    (hl : ∀ (j : Nat) (al' : ActorLane), e'.lanes[j]? = some al' → ∃ al : ActorLane, e.lanes[j]? = some al ∧
      al'.lane.pending = al.lane.pending ∧ al'.lane.stopper = al.lane.stopper) : Tended e' := by
  have htodo : e'.todo = e.todo := by
    unfold todo
    rw [hd]
  have htear : ∀ id, e'.tearing id ↔ e.tearing id := by
    intro id
    unfold tearing
    rw [hd]
  refine { keys := ?_, sweeps := ?_, torn := ?_ }
  · rw [ha]
    exact h.keys
  · intro j al' hj hne
    obtain ⟨al, hal, hp, _⟩ := hl j al' hj
    rw [hp] at hne
    rw [htodo]
    exact h.sweeps j al hal hne
  · intro j al' hj
    obtain ⟨al, hal, _, hst⟩ := hl j al' hj
    unfold Joins
    rw [ha, hst, htodo]
    rcases h.torn j al hal with hr | ⟨p, hp, hpk, hjoin⟩
    · exact Or.inl hr
    · exact Or.inr ⟨p, hp, hpk, fun ht => hjoin ((htear p.1).mp ht)⟩

theorem Tended.laneStep (h : Tended e) {a : RayX.Act ActorState} (ha : a.free = true)
    (hs : e.laneStep k a = some e') : Tended e' := by
  obtain ⟨al, l, hk, hl, rfl⟩ := laneStep_spec hs
  refine h.moves rfl rfl ?_
  intro j al' hj
  have hj' : (e.lanes.set k { al with lane := l })[j]? = some al' := hj
  by_cases hjk : k = j
  · subst hjk
    rw [List.getElem?_set_self (List.getElem?_eq_some_iff.mp hk).1] at hj'
    cases hj'
    exact ⟨al, hk, Lane.works_frame ha hl⟩
  · rw [List.getElem?_set_ne hjk] at hj'
    exact ⟨al', hj', rfl, rfl⟩

theorem Tended.accept (h : Tended e) (hk : e.lanes[k]? = some al) (c : MethodCall)
    (method : OpEntry ActorState) : Tended (e.accept k al c method) := by
  refine h.moves rfl rfl ?_
  intro j al' hj
  have hj' : (e.lanes.set k (pushed al c method))[j]? = some al' := hj
  by_cases hjk : k = j
  · subst hjk
    rw [List.getElem?_set_self (List.getElem?_eq_some_iff.mp hk).1] at hj'
    cases hj'
    exact ⟨al, hk, rfl, rfl⟩
  · rw [List.getElem?_set_ne hjk] at hj'
    exact ⟨al', hj', rfl, rfl⟩

/-- the ids of the actors that are left -/
theorem keys_insert (h : (e.actors.map Prod.fst).Nodup) {id : String}
    (hid : e.actors.lookup id = none) (r : ActorRecord) :
    ((e.actors ++ [(id, r)]).map Prod.fst).Nodup := by
  rw [List.map_append, List.map_singleton]
  refine h.append (List.nodup_singleton id) ?_
  intro x hx hx'
  rw [List.mem_singleton.mp hx'] at hx
  obtain ⟨p, hp, rfl⟩ := List.mem_map.mp hx
  have hne := List.lookup_eq_none_iff.mp hid p hp
  simp at hne

theorem factory_fresh {id actorType : String} {args : List PyObj} {st : ActorState}
    (h : e.factory id actorType args = .ok st) :
    e.running = true ∧ e.actors.lookup id = none := by
  unfold factory at h
  obtain ⟨_, hrun, h⟩ := bind_ok_iff.mp h
  have hr : e.running = true := by
    unfold require at hrun
    split at hrun
    · assumption
    · cases hrun
  refine ⟨hr, ?_⟩
  split at h
  · cases h
  · obtain ⟨_, _, h⟩ := bind_ok_iff.mp h
    obtain ⟨_, _, h⟩ := bind_ok_iff.mp h
    obtain ⟨_, _, h⟩ := bind_ok_iff.mp h
    obtain ⟨_, hreq, _⟩ := bind_ok_iff.mp h
    unfold require at hreq
    split at hreq
    · exact Option.isNone_iff_eq_none.mp ‹_›
    · cases hreq

theorem Tended.insert (h : Tended e) (hd : e.driver = .idle) {id : String}
    (hid : e.actors.lookup id = none) (actorType : String) (st : ActorState) :
    Tended (e.insert id actorType st) := by
  obtain ⟨c⟩ := st
  have htodo : (e.insert id actorType (.counter c)).todo = e.todo := rfl
  refine { keys := keys_insert h.keys hid _, sweeps := ?_, torn := ?_ }
  · intro j al hj
    have hj' : (e.lanes ++ [_])[j]? = some al := hj
    by_cases hlt : j < e.lanes.length
    · rw [List.getElem?_append_left hlt] at hj'
      exact h.sweeps j al hj'
    · rw [List.getElem?_append_right (Nat.le_of_not_lt hlt)] at hj'
      rw [List.mem_singleton.mp (List.mem_of_getElem? hj')]
      exact fun hne => absurd rfl hne
  · intro j al hj
    have hj' : (e.lanes ++ [_])[j]? = some al := hj
    have hno : ∀ id', ¬ (e.insert id actorType (.counter c)).tearing id' := by
      intro id' ht
      unfold tearing at ht
      rw [show (e.insert id actorType (.counter c)).driver = .idle from hd] at ht
      exact ht
    by_cases hlt : j < e.lanes.length
    · rw [List.getElem?_append_left hlt] at hj'
      rcases h.torn j al hj' with hr | ⟨p, hp, hpk, _⟩
      · exact Or.inl hr
      · exact Or.inr ⟨p, List.mem_append_left _ hp, hpk, fun ht => absurd ht (hno _)⟩
    · have hlen : j = e.lanes.length := by
        have := (List.getElem?_eq_some_iff.mp hj').1
        rw [List.length_append, List.length_singleton] at this
        omega
      exact Or.inr ⟨_, List.mem_append_right _ (List.mem_singleton_self _), hlen.symm,
        fun ht => absurd ht (hno _)⟩

/-- a call of the driver puts the lanes it takes down on the list -/
theorem Tended.starts (h : Tended e) (hd : e.driver = .idle) (ha : e'.actors = e.actors)
    (hl : e'.lanes = e.lanes)
    (ht : ∀ p ∈ e.actors, e'.tearing p.1 → Chore.stopAndJoin p.2.lane ∈ e'.todo) : Tended e' := by
  have hnil : e.todo = [] := by
    unfold todo
    rw [hd]
  refine { keys := by rw [ha]; exact h.keys, sweeps := ?_, torn := ?_ }
  · intro j al hj hne
    rw [hl] at hj
    exact absurd (h.idle_pending hnil hj) hne
  · intro j al hj
    rw [hl] at hj
    rw [ha]
    rcases h.torn j al hj with hr | ⟨p, hp, hpk, _⟩
    · exact Or.inl hr
    · refine Or.inr ⟨p, hp, hpk, fun htear => Or.inr (Or.inl ?_)⟩
      rw [← hpk]
      exact ht p hp htear

/-- the driver's next lane operation -/
theorem Tended.chore (h : Tended e) (hc : e.Consistent) {now : Int64} {resume : List Chore → Driver}
    {c : Chore} {rest : List Chore} (htodo : e.todo = c :: rest)
    (hresume : ∀ cs, (e.tearing = ({ e with driver := resume cs } : Engine).tearing) ∧
      ({ e with driver := resume cs } : Engine).todo = cs)
    (hs : e.chore now resume c rest = some e') : Tended e' := by
  obtain ⟨al, hal, hs⟩ := Option.bind_eq_some_iff.mp hs
  obtain ⟨⟨a, more⟩, hnext, hs⟩ := Option.bind_eq_some_iff.mp hs
  obtain ⟨e₁, hl, rfl⟩ := Option.map_eq_some_iff.mp hs
  obtain ⟨al₀, l, hal₀, hstep, rfl⟩ := laneStep_spec hl
  rw [hal] at hal₀
  cases hal₀
  have hop := Facade.next_opChore (hc.lanes c.lane al hal).2.serial hnext hstep
  obtain ⟨_, hsweep, hjoin⟩ := Facade.opChore_spec rest hop hstep
  have hlt := (List.getElem?_eq_some_iff.mp hal).1
  have htodo' : ∀ lanes, ({ e with lanes := lanes, driver := resume (more ++ rest) } : Engine).todo =
      more ++ rest := fun lanes => (hresume (more ++ rest)).2
  have htear : ∀ lanes id,
      ({ e with lanes := lanes, driver := resume (more ++ rest) } : Engine).tearing id →
        e.tearing id := by
    intro lanes id ht
    rw [(hresume (more ++ rest)).1]
    exact ht
  refine { keys := h.keys, sweeps := ?_, torn := ?_ }
  · intro j al' hj
    rw [htodo']
    have hj' : (e.lanes.set c.lane { al with lane := l })[j]? = some al' := hj
    by_cases hjk : c.lane = j
    · subst hjk
      rw [List.getElem?_set_self hlt] at hj'
      cases hj'
      apply hsweep
      rw [← htodo]
      exact h.sweeps _ al hal
    · rw [List.getElem?_set_ne hjk] at hj'
      have hold := h.sweeps j al' hj'
      rw [htodo] at hold
      exact hold.other hjk
  · intro j al' hj
    rw [htodo']
    have hj' : (e.lanes.set c.lane { al with lane := l })[j]? = some al' := hj
    by_cases hjk : c.lane = j
    · subst hjk
      rw [List.getElem?_set_self hlt] at hj'
      cases hj'
      rcases h.torn _ al hal with hr | ⟨p, hp, hpk, hold⟩
      · -- a lane that is joined stays so
        have hst : l.stopper = .returned := by
          cases Lane.step_sound hstep with
          | stopBegin hi =>
            rw [hr] at hi
            cases hi
          | join hi _ =>
            rw [hr] at hi
            cases hi
          | awaitInflight _ _ => rfl
          | _ => exact hr
        exact Or.inl hst
      · refine Or.inr ⟨p, hp, hpk, fun ht => hjoin ?_⟩
        rw [← htodo]
        exact hold (htear _ _ ht)
    · rw [List.getElem?_set_ne hjk] at hj'
      rcases h.torn j al' hj' with hr | ⟨p, hp, hpk, hold⟩
      · exact Or.inl hr
      · refine Or.inr ⟨p, hp, hpk, fun ht => ?_⟩
        have hold' := hold (htear _ _ ht)
        rw [htodo] at hold'
        exact hold'.other hjk

/-- the record of an id is the only entry with it -/
theorem Tended.record (h : Tended e) {id : String} {r : ActorRecord}
    (hl : e.actors.lookup id = some r) {p : String × ActorRecord} (hp : p ∈ e.actors)
    (hid : p.1 = id) : p.2 = r := by
  have hmem := mem_of_lookup hl
  have he : p = (id, r) := List.inj_on_of_nodup_map h.keys hp hmem hid
  rw [he]

/-- with nothing left to do a lane is joined, or its actor lives and is not the one that is released -/
theorem Tended.torn_down (h : Tended e) (htodo : e.todo = []) {j : Nat} {al : ActorLane}
    (hj : e.lanes[j]? = some al) : al.lane.stopper = .returned ∨
      ∃ p ∈ e.actors, p.2.lane = j ∧ ¬e.tearing p.1 := by
  rcases h.torn j al hj with hr | ⟨p, hp, hpk, hjoin⟩
  · exact Or.inl hr
  · by_cases ht : e.tearing p.1
    · rcases hjoin ht with hr | hmem | hmem
      · exact Or.inl hr
      · rw [htodo] at hmem
        cases hmem
      · rw [htodo] at hmem
        cases hmem
    · exact Or.inr ⟨p, hp, hpk, ht⟩

/-- **Every step of the engine keeps the lanes tended.** -/
theorem Tended.step (h : Tended e) (hc : e.Consistent) {a : Act} (hs : e.step a = some e') :
    Tended e' := by
  cases step_moves hs with
  | raises => exact h
  | creates _ hd hf => exact h.insert hd (factory_fresh hf).2 _ _
  | admits _ _ hk _ => exact h.accept hk _ _
  | @releases actorId record hd _ hlook =>
    refine h.starts hd rfl rfl ?_
    intro p hp ht
    have hid : actorId = p.1 := ht
    have hrec := h.record hlook hp hid.symm
    rw [hrec]
    exact mem_teardown (List.mem_singleton_self record.lane)
  | shuts hd _ =>
    refine h.starts hd rfl rfl ?_
    intro p hp _
    exact mem_teardown (List.mem_map_of_mem hp)
  | tears hd hs | tearsAll hd hs =>
    refine h.chore hc (by rw [todo, hd]) ?_ hs
    intro cs
    refine ⟨?_, rfl⟩
    funext id
    simp only [tearing, hd]
  | @released _ actorId hd =>
    have htodo : e.todo = [] := by
      unfold todo
      rw [hd]
    refine { keys := ?_, sweeps := ?_, torn := ?_ }
    · exact List.Nodup.sublist (List.filter_sublist.map Prod.fst) h.keys
    · intro j al hj hne
      exact absurd (h.idle_pending htodo hj) hne
    · intro j al hj
      rcases h.torn_down htodo hj with hr | ⟨p, hp, hpk, ht⟩
      · exact Or.inl hr
      · refine Or.inr ⟨p, List.mem_filter.mpr ⟨hp, ?_⟩, hpk, False.elim⟩
        have hid : p.1 ≠ actorId := by
          intro hid
          unfold tearing at ht
          rw [hd] at ht
          exact ht hid.symm
        simp [hid]
  | emptied hd =>
    have htodo : e.todo = [] := by
      unfold todo
      rw [hd]
    refine { keys := List.nodup_nil, sweeps := ?_, torn := ?_ }
    · intro j al hj hne
      exact absurd (h.idle_pending htodo hj) hne
    · intro j al hj
      rcases h.torn_down htodo hj with hr | ⟨p, _, _, ht⟩
      · exact Or.inl hr
      · unfold tearing at ht
        rw [hd] at ht
        exact absurd trivial ht
  | steps ha hs => exact h.laneStep ha hs

end Engine

end RayX
