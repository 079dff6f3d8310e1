import RayX.Lane.Inv

/-!
# The life of one item

What the lane does to a single item: an automaton over its place, its token and its promise.  The
lane refines it, item by item.

* `Life`, `Life.Step`   the automaton;
* `Lane.view`           the life of item `i` in a lane;
* `view_step`           **every step of the lane leaves the life of item `i` alone or is a step of
                        it**;
* `view_inv`            what the automaton keeps holds of every item of a reachable lane.
-/

namespace RayX
open Sys

/-- where an item is -/
inductive Loc (σ : Type) where
  | absent
  | queued
  | popped
  | began
  | registered
  | service (v : Svc σ)
  | retired

structure Life (σ : Type) where
  item : Option (Item σ) := none
  loc : Loc σ := .absent
  tok : Token := {}
  prom : List RuntimeResult := []
  owed : Nat := 0
  answers : List Bool := []

section
variable {σ : Type}

namespace Life

/-- one more promise to set by the caller of an accepted queued cancel -/
def owes (a : Answer) : Nat := if a = .fulfil then 1 else 0

inductive Step (actorId : String) (l : Life σ) : Life σ → Prop where
  | accept (it : Item σ) (hl : l.loc = .absent) :
    Step actorId l { l with item := some it, loc := .queued }
  | cancel (hl : l.loc ≠ .absent) :
    Step actorId l { l with
      tok := l.tok.cancel.1
      answers := l.answers ++ [l.tok.cancel.2.returned]
      owed := l.owed + owes l.tok.cancel.2 }
  | cancelFulfil (now : Int64) (ho : 0 < l.owed) :
    Step actorId l { l with
      prom := l.prom ++ [Token.cancelRow actorId now]
      owed := l.owed - 1 }
  | pop (hl : l.loc = .queued) : Step actorId l { l with loc := .popped }
  | begins (it : Item σ) (hi : l.item = some it) (hl : l.loc = .popped)
      (hb : (l.tok.beginService it.checkpointCount).2 = true) :
    Step actorId l { l with tok := (l.tok.beginService it.checkpointCount).1, loc := .began }
  | skips (it : Item σ) (hi : l.item = some it) (hl : l.loc = .popped)
      (hb : (l.tok.beginService it.checkpointCount).2 = false) :
    Step actorId l { l with loc := .retired }
  | starts (it : Item σ) (hi : l.item = some it) (hl : l.loc = .began) :
    Step actorId l { l with loc := .service (.body it.task) }
  | registers (hl : l.loc = .began) : Step actorId l { l with loc := .registered }
  | launch (it : Item σ) (hi : l.item = some it) (hl : l.loc = .registered) :
    Step actorId l { l with loc := .service (.body it.task) }
  | ends (t : Prog σ Exc RuntimeResult) (r : Except Exc RuntimeResult)
      (hl : l.loc = .service (.body t)) (hr : t.result = some r) :
    Step actorId l { l with loc := .service (.outcome (rowOf actorId r)) }
  | effect (t t' : Prog σ Exc RuntimeResult) (now : Int64) (st st' : σ) (tk : Token)
      (hl : l.loc = .service (.body t)) (hr : t.result = none)
      (ht : t.step Token.stopAtBoundary now st l.tok = some (t', st', tk)) :
    Step actorId l { l with tok := tk, loc := .service (.body t') }
  | markFinished (r : RuntimeResult) (hl : l.loc = .service (.outcome r)) :
    Step actorId l { l with tok := Lane.finished r l.tok, loc := .service (.settled r) }
  | setHere (r : RuntimeResult) (hl : l.loc = .service (.settled r)) :
    Step actorId l { l with prom := l.prom ++ [r], loc := .retired }
  | setThere (r : RuntimeResult) (hl : l.loc = .service (.settled r)) :
    Step actorId l { l with prom := l.prom ++ [r], loc := .service .fulfilled }
  | release (hl : l.loc = .service .fulfilled) : Step actorId l { l with loc := .retired }

end Life

/-! ## the life of an item in a lane -/

/-- the place of an item that is popped and not in service -/
def Consumer.place (c : Consumer σ) (i : Nat) : Loc σ :=
  match c with
  | .popped it => if it.id = i then .popped else .retired
  | .began it => if it.id = i then .began else .retired
  | .registered it => if it.id = i then .registered else .retired
  | _ => .retired

/-- the `set_value` that `cancel_pending` still owes item `i` -/
def Pending.owed (p : Pending) (i : Nat) : Nat :=
  match p with
  | .fulfilling j _ => if j = i then 1 else 0
  | _ => 0

namespace Lane

def loc (s : Lane σ) (i : Nat) : Loc σ :=
  if s.admitted.length ≤ i then .absent
  else if s.admitted.length ≤ i + s.queue.length then .queued
  else
    match s.svc i with
    | some v => .service v
    | none => s.consumer.place i

/-- the `set_value` calls of accepted queued cancels that item `i` still waits for -/
def owed (s : Lane σ) (i : Nat) : Nat := s.cancelling.count i + s.pending.owed i

def view (i : Nat) (s : Lane σ) : Life σ :=
  { item := s.admitted[i]?, loc := s.loc i, tok := s.tok i, prom := s.prom i, owed := s.owed i,
    answers := s.answers i }

variable {s s' : Lane σ} {i : Nat}

theorem loc_absent (h : s.admitted.length ≤ i) : s.loc i = .absent := by
  rw [loc, if_pos h]

theorem loc_ne_absent (h : i < s.admitted.length) : s.loc i ≠ .absent := by
  unfold loc Consumer.place
  rw [if_neg (Nat.not_le.mpr h)]
  intro hh
  repeat' split at hh
  all_goals cases hh

theorem loc_queued (h : i < s.admitted.length) (hq : s.admitted.length ≤ i + s.queue.length) :
    s.loc i = .queued := by
  rw [loc, if_neg (Nat.not_le.mpr h), if_pos hq]

/-- the place of an item that is popped and not in service -/
theorem loc_idle (h : i + s.queue.length < s.admitted.length) (hv : s.svc i = none) :
    s.loc i = s.consumer.place i := by
  have h1 : ¬ s.admitted.length ≤ i := by omega
  have h2 : ¬ s.admitted.length ≤ i + s.queue.length := by omega
  rw [loc, if_neg h1, if_neg h2, hv]

theorem loc_busy (h : i + s.queue.length < s.admitted.length) {v : Svc σ} (hv : s.svc i = some v) :
    s.loc i = .service v := by
  have h1 : ¬ s.admitted.length ≤ i := by omega
  have h2 : ¬ s.admitted.length ≤ i + s.queue.length := by omega
  rw [loc, if_neg h1, if_neg h2, hv]

theorem Wf.loc_service (h : Wf s) {v : Svc σ} (hv : s.svc i = some v) : s.loc i = .service v := by
  have hne : s.svc i ≠ none := by
    rw [hv]
    exact Option.some_ne_none v
  exact loc_busy (h.begun i hne) hv

section
variable {c : Consumer σ} {it : Item σ}

theorem Wf.item_held (h : Wf s) (hc : s.consumer = c) (hit : c.item? = some it) :
    s.admitted[it.id]? = some it :=
  (h.held it (by rw [hc]; exact hit)).1

/-- the place of the item that the consumer holds and does not serve, now and after a step that does
not begin its service -/
theorem Wf.loc_held (h : Wf s) (hc : s.consumer = c) (hit : c.item? = some it)
    (hs : c.serves it.id = false) (ha : s'.admitted = s.admitted) (hq : s'.queue = s.queue)
    (hv : s'.svc = s.svc) : s'.loc it.id = s'.consumer.place it.id := by
  subst hc
  have hlen := (h.held it hit).2
  refine loc_idle ?_ ?_
  · rw [ha, hq]
    omega
  · rw [hv]
    exact h.notHere it hit hs

/-- .. and after one that does -/
theorem Wf.loc_taken (h : Wf s) (hc : s.consumer = c) (hit : c.item? = some it)
    (ha : s'.admitted = s.admitted) (hq : s'.queue = s.queue) {v : Svc σ}
    (hv : s'.svc = Function.update s.svc it.id (some v)) : s'.loc it.id = .service v := by
  subst hc
  have hlen := (h.held it hit).2
  refine loc_busy ?_ ?_
  · rw [ha, hq]
    omega
  · rw [hv, Function.update_self]

end

theorem loc_congr (ha : s'.admitted.length = s.admitted.length)
    (hq : s'.queue.length = s.queue.length) (hv : s'.svc i = s.svc i)
    (hp : s'.consumer.place i = s.consumer.place i) : s'.loc i = s.loc i := by
  unfold loc
  rw [ha, hq, hv, hp]

theorem view_congr (ha : s'.admitted = s.admitted) (hl : s'.loc i = s.loc i)
    (ht : s'.tok i = s.tok i) (hp : s'.prom i = s.prom i) (ho : s'.owed i = s.owed i)
    (hw : s'.answers i = s.answers i) : view i s' = view i s := by
  unfold view
  rw [ha, hl, ht, hp, ho, hw]

theorem view_mk {item : Option (Item σ)} {loc : Loc σ} {tok : Token} {prom : List RuntimeResult}
    {owed : Nat} {answers : List Bool} (ha : s.admitted[i]? = item) (hl : s.loc i = loc)
    (ht : s.tok i = tok) (hp : s.prom i = prom) (ho : s.owed i = owed)
    (hw : s.answers i = answers) : view i s = ⟨item, loc, tok, prom, owed, answers⟩ := by
  rw [view, ha, hl, ht, hp, ho, hw]

theorem place_other {it : Item σ} (h : it.id ≠ i) :
    (Consumer.popped it).place i = .retired ∧ (Consumer.began it).place i = .retired ∧
      (Consumer.registered it).place i = .retired :=
  ⟨if_neg h, if_neg h, if_neg h⟩

theorem place_self (it : Item σ) :
    (Consumer.popped it).place it.id = .popped ∧ (Consumer.began it).place it.id = .began ∧
      (Consumer.registered it).place it.id = .registered :=
  ⟨if_pos rfl, if_pos rfl, if_pos rfl⟩

theorem afterItem_place (s : Lane σ) (i : Nat) : s.afterItem.place i = .retired := by
  rcases afterItem_cases s with h | h <;> rw [h] <;> rfl

section
variable {s : Lane σ} {it : Item σ}

theorem Wf.loc_popped (h : Wf s) (hc : s.consumer = .popped it) : s.loc it.id = .popped := by
  rw [h.loc_held hc rfl rfl rfl rfl rfl, hc]
  exact (place_self it).1

theorem Wf.loc_began (h : Wf s) (hc : s.consumer = .began it) : s.loc it.id = .began := by
  rw [h.loc_held hc rfl rfl rfl rfl rfl, hc]
  exact (place_self it).2.1

theorem Wf.loc_registered (h : Wf s) (hc : s.consumer = .registered it) :
    s.loc it.id = .registered := by
  rw [h.loc_held hc rfl rfl rfl rfl rfl, hc]
  exact (place_self it).2.2

end

/-! ## each move, seen from item `i` -/

/-- a move of the lane leaves the life of item `i` alone, or is a step of it -/
def Seen (i : Nat) (s s' : Lane σ) : Prop :=
  view i s' = view i s ∨ Life.Step s.actorId (view i s) (view i s')

theorem view_push (task : Prog σ Exc RuntimeResult) (cc : Int) (policy : DispatchPolicy) :
    Seen i s (s.push task cc policy) := by
  have hlen : (s.push task cc policy).admitted.length = s.admitted.length + 1 := by
    simp [Lane.push]
  have hq : (s.push task cc policy).queue.length = s.queue.length + 1 := by
    simp [Lane.push]
  rcases Nat.lt_trichotomy i s.admitted.length with hi | hi | hi
  · -- an older item
    refine Or.inl (view_mk ?_ ?_ rfl rfl rfl rfl)
    · exact List.getElem?_append_left hi
    · unfold loc
      rw [hlen, hq]
      have e1 : (s.admitted.length + 1 ≤ i) = (s.admitted.length ≤ i) := by
        rw [eq_iff_iff]
        omega
      have e2 : (s.admitted.length + 1 ≤ i + (s.queue.length + 1)) =
          (s.admitted.length ≤ i + s.queue.length) := by
        rw [eq_iff_iff]
        omega
      simp only [e1, e2]
      rfl
  · -- the new item
    refine Or.inr ?_
    have hnew : (s.push task cc policy).admitted[i]? =
        some { task, checkpointCount := cc, policy, id := s.admitted.length } := by
      rw [hi]
      exact List.getElem?_concat_length
    rw [view_mk hnew (loc_queued (by omega) (by omega)) rfl rfl rfl rfl]
    exact .accept _ (loc_absent (by omega))
  · -- an item to come
    refine Or.inl (view_mk ?_ ?_ rfl rfl rfl rfl)
    · rw [List.getElem?_eq_none (by omega), List.getElem?_eq_none (by omega)]
    · rw [loc_absent (by omega), loc_absent (by omega)]

/-- an item that is in flight is in no other hands -/
theorem Wf.place_flying (h : Wf s) (hv : s.svc i = some .fulfilled) :
    s.consumer.place i = .retired := by
  have hfree : ∀ it, s.consumer.item? = some it → s.consumer.serves it.id = false → it.id ≠ i := by
    intro it hit hns hid
    have hn := h.notHere it hit hns
    rw [hid, hv] at hn
    cases hn
  cases hc : s.consumer with
  | popped it => exact if_neg (hfree it (by rw [hc]; rfl) (by rw [hc]; rfl))
  | began it => exact if_neg (hfree it (by rw [hc]; rfl) (by rw [hc]; rfl))
  | registered it => exact if_neg (hfree it (by rw [hc]; rfl) (by rw [hc]; rfl))
  | _ => rfl

/-- the place after a step of the service of item `i` -/
theorem loc_setSvc (h : Wf s) {v w : Svc σ} (hv : s.svc i = some v)
    (ha : s'.admitted = s.admitted) (hq : s'.queue = s.queue)
    (hw : s'.svc = Function.update s.svc i (some w)) : s'.loc i = .service w := by
  have hlen := h.begun i (by rw [hv]; exact Option.some_ne_none v)
  have hlen' : i + s'.queue.length < s'.admitted.length := by
    rw [ha, hq]
    exact hlen
  refine loc_busy hlen' ?_
  rw [hw, Function.update_self]

theorem view_moves {l : Life σ} (hl : Life.Step s.actorId (view i s) l) (e : view i s' = l) :
    Seen i s s' := by
  refine Or.inr ?_
  rw [e]
  exact hl

/-- a `cancel()` of the token of item `j`, by a client or by `cancel_pending` -/
theorem view_cancel {j : Nat} (hj : j < s.admitted.length) (cancelling : List Nat)
    (pending : Pending) (ho : cancelling.count i + pending.owed i =
      s.owed i + if i = j then Life.owes (s.tok j).cancel.2 else 0) :
    Seen i s { s.cancelTok j with cancelling := cancelling, pending := pending } := by
  by_cases hne : i = j
  · subst hne
    rw [if_pos rfl] at ho
    exact view_moves (.cancel (loc_ne_absent hj))
      (view_mk rfl rfl (Function.update_self _ _ _) rfl ho (Function.update_self _ _ _))
  · rw [if_neg hne] at ho
    exact Or.inl (view_congr rfl rfl (Function.update_of_ne hne _ _) rfl ho
      (Function.update_of_ne hne _ _))

/-- the `set_value` that an accepted queued cancel of item `j` still owes -/
theorem view_fulfil {j : Nat} (now : Int64) (hj : 0 < s.owed j) (cancelling : List Nat)
    (pending : Pending) (ho : cancelling.count i + pending.owed i =
      s.owed i - if i = j then 1 else 0) :
    Seen i s { s.fulfil j (Token.cancelRow s.actorId now) with
      cancelling := cancelling, pending := pending } := by
  by_cases hne : i = j
  · subst hne
    rw [if_pos rfl] at ho
    exact view_moves (.cancelFulfil now hj)
      (view_mk rfl rfl rfl (Function.update_self _ _ _) ho rfl)
  · rw [if_neg hne] at ho
    exact Or.inl (view_congr rfl rfl rfl (Function.update_of_ne hne _ _) ho rfl)

/-- what the next `cancel()` of `cancel_pending` comes to owe -/
theorem owed_next (a : Answer) (j : Nat) (todo : List Nat) :
    (if a = .fulfil then Pending.fulfilling j todo else .cancelling todo).owed i =
      if i = j then Life.owes a else 0 := by
  unfold Life.owes
  cases a with
  | fulfil => exact if_congr eq_comm rfl rfl
  | _ => exact (ite_self 0).symm

theorem view_cancels {j : Nat} (hj : j < s.admitted.length) : Seen i s { s.cancelTok j with
    cancelling := if (s.tok j).cancel.2 = .fulfil then j :: s.cancelling else s.cancelling } := by
  refine view_cancel hj _ _ ?_
  show (if _ then _ else _ : List Nat).count i + s.pending.owed i =
    (s.cancelling.count i + s.pending.owed i) + _
  unfold Life.owes
  by_cases hne : i = j
  · subst hne
    rw [if_pos rfl]
    split
    · rw [List.count_cons_self]
      omega
    · rfl
  · rw [if_neg hne]
    split
    · rw [List.count_cons_of_ne (Ne.symm hne)]
      rfl
    · rfl

theorem view_cancelFulfil {j : Nat} {now : Int64} (hj : j ∈ s.cancelling) :
    Seen i s { s.fulfil j (Token.cancelRow s.actorId now) with
      cancelling := s.cancelling.erase j } := by
  have hpos := List.count_pos_iff.mpr hj
  refine view_fulfil now (Nat.add_pos_left hpos _) _ _ ?_
  show (s.cancelling.erase j).count i + s.pending.owed i =
    (s.cancelling.count i + s.pending.owed i) - _
  by_cases hne : i = j
  · subst hne
    rw [if_pos rfl, List.count_erase_self]
    omega
  · rw [if_neg hne, List.count_erase_of_ne hne]
    rfl

theorem view_pop (h : Wf s) {it : Item σ} {queue : List (Item σ)} (hc : s.consumer = .waiting)
    (hq : s.queue = it :: queue) (active : Bool) (activeTok : Option Nat) :
    Seen i s { s with
      queue := queue, consumer := .popped it, active := active, activeTok := activeTok } := by
  obtain ⟨hget, hlen⟩ := h.head hq
  have hql : s.queue.length = queue.length + 1 := by
    rw [hq, List.length_cons]
  by_cases hne : i = it.id
  · subst hne
    refine view_moves (.pop (loc_queued (by omega) (by omega))) (view_mk rfl ?_ rfl rfl rfl rfl)
    have hfree : s.svc it.id = none := by
      by_contra hv
      have := h.begun it.id hv
      omega
    have hb : it.id + queue.length < s.admitted.length := by omega
    refine (loc_idle ?_ ?_).trans ?_
    · exact hb
    · exact hfree
    · exact (place_self it).1
  · refine Or.inl (view_congr rfl ?_ rfl rfl rfl rfl)
    unfold loc
    show (if s.admitted.length ≤ i then _ else if s.admitted.length ≤ i + queue.length then _
      else match s.svc i with | some v => _ | none => (Consumer.popped it).place i) = _
    have e : (s.admitted.length ≤ i + queue.length) = (s.admitted.length ≤ i + s.queue.length) := by
      rw [eq_iff_iff]
      omega
    rw [(place_other (Ne.symm hne)).1, hc]
    simp only [e]
    rfl

/-- the consumer goes on, and no item changes its place -/
theorem view_walk {c : Consumer σ} (hc : s.consumer = c) (ha : s'.admitted = s.admitted)
    (hq : s'.queue = s.queue) (hv : s'.svc = s.svc) (ht : s'.tok = s.tok) (hp : s'.prom = s.prom)
    (ho : s'.owed i = s.owed i) (hw : s'.answers = s.answers)
    (hplace : s'.consumer.place i = c.place i) : Seen i s s' := by
  subst hc
  exact Or.inl (view_congr ha (loc_congr (by rw [ha]) (by rw [hq]) (by rw [hv]) hplace) (by rw [ht])
    (by rw [hp]) ho (by rw [hw]))

section
variable {it : Item σ}

theorem view_begins (h : Wf s) (hc : s.consumer = .popped it)
    (hb : ((s.tok it.id).beginService it.checkpointCount).2 = true) :
    Seen i s { s.setTok it.id ((s.tok it.id).beginService it.checkpointCount).1 with
      consumer := .began it } := by
  by_cases hne : i = it.id
  · subst hne
    refine view_moves (.begins it (h.item_held hc rfl) (h.loc_popped hc) hb)
      (view_mk rfl ?_ (Function.update_self _ _ _) rfl rfl rfl)
    exact Eq.trans (h.loc_held hc rfl rfl rfl rfl rfl) (place_self it).2.1
  · refine Or.inl (view_congr rfl (loc_congr rfl rfl rfl ?_) (Function.update_of_ne hne _ _)
      rfl rfl rfl)
    rw [hc]
    exact (place_other (Ne.symm hne)).2.1.trans (place_other (Ne.symm hne)).1.symm

theorem view_skips (h : Wf s) (hc : s.consumer = .popped it)
    (hb : ((s.tok it.id).beginService it.checkpointCount).2 = false) :
    Seen i s { s with consumer := s.afterItem } := by
  by_cases hne : i = it.id
  · subst hne
    refine view_moves (.skips it (h.item_held hc rfl) (h.loc_popped hc) hb)
      (view_mk rfl ?_ rfl rfl rfl rfl)
    exact Eq.trans (h.loc_held hc rfl rfl rfl rfl rfl) (afterItem_place s it.id)
  · refine view_walk hc rfl rfl rfl rfl rfl rfl rfl ?_
    exact (afterItem_place s i).trans (place_other (Ne.symm hne)).1.symm

theorem view_starts (h : Wf s) (hc : s.consumer = .began it) :
    Seen i s { s.setSvc it.id (some (.body it.task)) with consumer := .serving it } := by
  by_cases hne : i = it.id
  · subst hne
    refine view_moves (.starts it (h.item_held hc rfl) (h.loc_began hc))
      (view_mk rfl ?_ rfl rfl rfl rfl)
    apply h.loc_taken hc rfl <;> rfl
  · refine Or.inl (view_congr rfl (loc_congr rfl rfl (Function.update_of_ne hne _ _) ?_)
      rfl rfl rfl rfl)
    rw [hc]
    exact (place_other (Ne.symm hne)).2.1.symm

theorem view_registers (h : Wf s) (hc : s.consumer = .began it) (inflight : Int)
    (inflightToks : List Nat) : Seen i s { s with
      inflight := inflight, inflightToks := inflightToks, consumer := .registered it } := by
  by_cases hne : i = it.id
  · subst hne
    refine view_moves (.registers (h.loc_began hc)) (view_mk rfl ?_ rfl rfl rfl rfl)
    exact Eq.trans (h.loc_held hc rfl rfl rfl rfl rfl) (place_self it).2.2
  · refine view_walk hc rfl rfl rfl rfl rfl rfl rfl ?_
    exact (place_other (Ne.symm hne)).2.2.trans (place_other (Ne.symm hne)).2.1.symm

theorem view_launch (h : Wf s) (hc : s.consumer = .registered it) :
    Seen i s { s.setSvc it.id (some (.body it.task)) with consumer := .waiting } := by
  by_cases hne : i = it.id
  · subst hne
    refine view_moves (.launch it (h.item_held hc rfl) (h.loc_registered hc))
      (view_mk rfl ?_ rfl rfl rfl rfl)
    apply h.loc_taken hc rfl <;> rfl
  · refine Or.inl (view_congr rfl (loc_congr rfl rfl (Function.update_of_ne hne _ _) ?_)
      rfl rfl rfl rfl)
    rw [hc]
    exact (place_other (Ne.symm hne)).2.2.symm

end

/-- the service of item `j` goes on, with its token and its promise -/
theorem view_service (h : Wf s) {j : Nat} {v w : Svc σ} (hv : s.svc j = some v) (tok : Token)
    (prom : List RuntimeResult) (ha : s'.admitted = s.admitted) (hq : s'.queue = s.queue)
    (hc : s'.consumer = s.consumer) (hw : s'.svc = Function.update s.svc j (some w))
    (ht : s'.tok = Function.update s.tok j tok) (hp : s'.prom = Function.update s.prom j prom)
    (ho : ∀ k, s'.owed k = s.owed k) (han : s'.answers = s.answers)
    (hl : s.loc j = .service v → Life.Step s.actorId (view j s)
      { view j s with tok := tok, prom := prom, loc := .service w }) : Seen i s s' := by
  by_cases hne : i = j
  · subst hne
    refine view_moves (hl (h.loc_service hv))
      (view_mk (by rw [ha]; rfl) (loc_setSvc h hv ha hq hw) ?_ ?_ (ho i) (by rw [han]; rfl))
    · rw [ht, Function.update_self]
    · rw [hp, Function.update_self]
  · refine Or.inl (view_congr ha ?_ ?_ ?_ (ho i) (by rw [han]))
    · refine loc_congr (by rw [ha]) (by rw [hq]) ?_ (by rw [hc])
      rw [hw, Function.update_of_ne hne]
    · rw [ht, Function.update_of_ne hne]
    · rw [hp, Function.update_of_ne hne]

theorem view_setHere (h : Wf s) {j : Nat} {r : RuntimeResult} (hv : s.svc j = some (.settled r))
    (hc : s.consumer.serves j = true) :
    Seen i s { (s.fulfil j r).setSvc j none with consumer := s.afterItem } := by
  have hlen := h.begun j (h.here j hc).1
  have hpl : s.consumer.place i = .retired := by
    cases hcons : s.consumer with
    | serving it => rfl
    | _ =>
      rw [hcons] at hc
      cases hc
  by_cases hne : i = j
  · subst hne
    refine view_moves (.setHere r (h.loc_service hv))
      (view_mk rfl ?_ rfl (Function.update_self _ _ _) rfl rfl)
    refine (loc_idle ?_ ?_).trans ?_
    · exact hlen
    · exact Function.update_self _ _ _
    · exact afterItem_place s i
  · exact Or.inl (view_congr rfl (loc_congr rfl rfl (Function.update_of_ne hne _ _)
      ((afterItem_place s i).trans hpl.symm)) rfl (Function.update_of_ne hne _ _) rfl rfl)

theorem view_release (h : Wf s) {j : Nat} (hv : s.svc j = some .fulfilled) (inflight : Int)
    (inflightToks : List Nat) :
    Seen i s { s.setSvc j none with inflight := inflight, inflightToks := inflightToks } := by
  by_cases hne : i = j
  · subst hne
    refine view_moves (.release (h.loc_service hv)) (view_mk rfl ?_ rfl rfl rfl rfl)
    have hlen := h.begun i (by rw [hv]; exact Option.some_ne_none _)
    refine (loc_idle ?_ ?_).trans ?_
    · exact hlen
    · exact Function.update_self _ _ _
    · exact h.place_flying hv
  · exact Or.inl (view_congr rfl (loc_congr rfl rfl (Function.update_of_ne hne _ _) rfl)
      rfl rfl rfl rfl)

/-- `cancel_pending` goes on without a token -/
theorem view_pending {p : Pending} (hp : p.owed i = s.pending.owed i) :
    Seen i s { s with pending := p } := by
  refine Or.inl (view_congr rfl rfl rfl rfl ?_ rfl)
  show s.cancelling.count i + p.owed i = _
  rw [hp]
  rfl

theorem view_cpCancel (h : Wf s) {j : Nat} {todo : List Nat}
    (hp : s.pending = .cancelling (j :: todo)) : Seen i s { s.cancelTok j with
      pending := if (s.tok j).cancel.2 = .fulfil then .fulfilling j todo else .cancelling todo } := by
  have hj := h.collected
  rw [hp] at hj
  refine view_cancel (hj j List.mem_cons_self) _ _ ?_
  show s.cancelling.count i + _ = (s.cancelling.count i + s.pending.owed i) + _
  rw [owed_next, hp]
  rfl

theorem view_cpFulfil {j : Nat} {todo : List Nat} {now : Int64}
    (hp : s.pending = .fulfilling j todo) :
    Seen i s { s.fulfil j (Token.cancelRow s.actorId now) with pending := .cancelling todo } := by
  have how : ∀ k, s.owed k = s.cancelling.count k + if j = k then 1 else 0 := by
    intro k
    rw [owed, hp]
    rfl
  refine view_fulfil now ?_ _ _ ?_
  · rw [how, if_pos rfl]
    omega
  · show s.cancelling.count i + 0 = s.owed i - _
    rw [how]
    by_cases hne : i = j
    · rw [if_pos hne.symm, if_pos hne]
      omega
    · rw [if_neg (Ne.symm hne), if_neg hne]
      rfl

/-- **Every step of the lane leaves the life of item `i` alone or is a step of it.** -/
theorem view_step (h : Wf s) {a : Act σ} (hs : Step s a s') :
    view i s' = view i s ∨ Life.Step s.actorId (view i s) (view i s') := by
  cases hs with
  | submit _ => exact view_push _ _ _
  | accept _ _ => exact view_push _ _ _
  | reject _ _ => exact Or.inl rfl
  | cancel hj => exact view_cancels hj
  | cancelFulfil hj => exact view_cancelFulfil hj
  | pop hc hq _ => exact view_pop h hc hq _ _
  | exit hc _ _ => exact view_walk hc rfl rfl rfl rfl rfl rfl rfl rfl
  | begins hc hb => exact view_begins h hc hb
  | skips hc hb => exact view_skips h hc hb
  | starts hc _ => exact view_starts h hc
  | registers hc _ => exact view_registers h hc _ _
  | launch hc => exact view_launch h hc
  | @ends j now t r hv hr =>
    exact view_service h hv (s.tok j) (s.prom j) rfl rfl rfl rfl (Function.update_eq_self _ _).symm
      (Function.update_eq_self _ _).symm (fun _ => rfl) rfl fun hl => .ends t r hl hr
  | @effect j now t t' st tk hv hr ht =>
    exact view_service h hv tk (s.prom j) rfl rfl rfl rfl rfl (Function.update_eq_self _ _).symm
      (fun _ => rfl) rfl fun hl => .effect t t' now s.state st tk hl hr ht
  | @markFinished j r hv =>
    exact view_service h hv (finished r (s.tok j)) (s.prom j) rfl rfl rfl rfl rfl
      (Function.update_eq_self _ _).symm (fun _ => rfl) rfl fun hl => .markFinished r hl
  | setHere hv hc => exact view_setHere h hv hc
  | @setThere j r hv hc =>
    exact view_service h hv (s.tok j) (s.prom j ++ [r]) rfl rfl rfl rfl
      (Function.update_eq_self _ _).symm rfl (fun _ => rfl) rfl fun hl => .setThere r hl
  | release hv => exact view_release h hv _ _
  | clearTok hc => exact view_walk hc rfl rfl rfl rfl rfl rfl rfl rfl
  | clearActive hc => exact view_walk hc rfl rfl rfl rfl rfl rfl rfl rfl
  | collect hp => exact view_pending (by rw [hp]; rfl)
  | cpCancel hp => exact view_cpCancel h hp
  | cpFulfil hp => exact view_cpFulfil hp
  | cpReturn hp => exact view_pending (by rw [hp]; rfl)
  | stopBegin _ => exact Or.inl rfl
  | join _ _ => exact Or.inl rfl
  | awaitInflight _ _ => exact Or.inl rfl

/-- the lane id does not change -/
theorem step_actorId {a : Act σ} (hs : Step s a s') : s'.actorId = s.actorId := by
  cases hs <;> rfl

/-- **What the automaton keeps holds of every item of a reachable lane.** -/
theorem view_inv {actorId : String} {mode : LaneMode} {maxInflight : Int} {st : σ}
    {P : Life σ → Prop} (h0 : P {}) (hP : ∀ l l', P l → Life.Step actorId l l' → P l')
    (h : Reach Lane.step (create actorId mode maxInflight st) s) (i : Nat) : P (view i s) := by
  have hview : view i (create actorId mode maxInflight st) = {} :=
    view_mk rfl (loc_absent (Nat.zero_le i)) rfl rfl rfl rfl
  refine h.view_inv (I := fun s => Wf s ∧ s.actorId = actorId) (R := Life.Step actorId) ?_ ?_ hP
    ⟨wf_create actorId mode maxInflight st, rfl⟩ (by rw [hview]; exact h0)
  · intro s a s' hs ha
    exact ⟨hs.1.step (step_sound ha), (step_actorId (step_sound ha)).trans hs.2⟩
  · intro s a s' hs ha
    have hv := view_step (i := i) hs.1 (step_sound ha)
    rw [hs.2] at hv
    exact hv

end Lane

end

end RayX
