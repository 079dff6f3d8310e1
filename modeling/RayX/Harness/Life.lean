import RayX.Harness.Lane
import Mathlib.Data.List.Count

/-!
# The life of one request

What a lane does to a single item: an automaton over its place, its token, its promise and the rows
that the lane itself produced for it.

* `Life`, `Life.Step`   the automaton;
* `ServiceLane.view`    the life of item `i` in a lane;
* `view_step`           **every step of the lane leaves the life of item `i` alone or is a step of
                        it**;
* `view_inv`            what the automaton keeps holds of every item of a reachable lane.
-/

namespace RayX
open Sys

namespace Harness

section
variable {D : Type} [Millis D]

/-- where an item is -/
inductive Loc (D : Type) [Millis D] where
  | absent
  | queued
  | popped
  | began
  | serving (r : Result) (p : Prog Unit String (Option Int))
  | ending (r : Result)
  | computed (r : Result)
  | retired

structure Life (D : Type) [Millis D] where
  item : Option (Item D) := none
  loc : Loc D := .absent
  tok : CancelToken := {}
  prom : List Result := []
  owed : Nat := 0
  answers : List Bool := []
  produced : List Result := []

namespace Life

/-- one more promise to set by the caller of an accepted queued cancel -/
def owes (a : Answer) : Nat := if a = .fulfil then 1 else 0

/-- the life after a call of `cancel()` -/
def cancelled (l : Life D) : Life D := { l with
  tok := l.tok.cancel.1
  answers := l.answers ++ [l.tok.cancel.2.returned]
  owed := l.owed + owes l.tok.cancel.2 }

inductive Step (actorId : String) (l : Life D) : Life D → Prop where
  | submit (it : Item D) (hi : l.item = none) :
    Step actorId l { l with item := some it, loc := .queued }
  | cancel (it : Item D) (hi : l.item = some it) (hc : it.cancelable = true) :
    Step actorId l l.cancelled
  | cancelFulfil (it : Item D) (now : Int64) (hi : l.item = some it) (ho : 0 < l.owed) :
    Step actorId l { l with
      prom := l.prom ++ [CancelToken.row actorId it.req.submitNs now]
      owed := l.owed - 1 }
  | pop (it : Item D) (hi : l.item = some it) (hl : l.loc = .queued) :
    Step actorId l { l with loc := .popped }
  | begins (it : Item D) (hi : l.item = some it) (hl : l.loc = .popped) (hc : it.cancelable = true)
      (hb : (l.tok.beginService it.req.chunks).2 = true) :
    Step actorId l { l with tok := (l.tok.beginService it.req.chunks).1, loc := .began }
  | skips (it : Item D) (hi : l.item = some it) (hl : l.loc = .popped) (hc : it.cancelable = true)
      (hb : (l.tok.beginService it.req.chunks).2 = false) :
    Step actorId l { l with loc := .retired }
  | beginsBare (it : Item D) (hi : l.item = some it) (hl : l.loc = .popped)
      (hc : it.cancelable = false) : Step actorId l { l with loc := .began }
  | start (it : Item D) (now : Int64) (hi : l.item = some it) (hl : l.loc = .began) :
    Step actorId l { l with
      loc := .serving (startRow it.req actorId now) (serviceBody it.req it.cancelable) }
  | ends (it : Item D) (r : Result) (p : Prog Unit String (Option Int))
      (out : Except String (Option Int)) (hi : l.item = some it) (hl : l.loc = .serving r p)
      (hr : p.result = some out) :
    Step actorId l { l with
      tok := ServiceLane.settle it out l.tok
      loc := .ending (outcomeRow it.req r out) }
  | effect (it : Item D) (r : Result) (p p' : Prog Unit String (Option Int)) (now : Int64)
      (tk : CancelToken) (hi : l.item = some it) (hl : l.loc = .serving r p)
      (hp : p.step Token.stopAtBoundary now () l.tok = some (p', (), tk)) :
    Step actorId l { l with tok := tk, loc := .serving r p' }
  | finish (it : Item D) (r : Result) (now : Int64) (hi : l.item = some it) (hl : l.loc = .ending r) :
    Step actorId l { l with loc := .computed (ServiceLane.finishRow it r now) }
  | setValue (it : Item D) (r : Result) (hi : l.item = some it) (hl : l.loc = .computed r) :
    Step actorId l { l with prom := l.prom ++ [r], loc := .retired, produced := l.produced ++ [r] }

end Life

/-! ## the life of an item in a lane -/

/-- the place of the item that the consumer holds -/
def Consumer.place (c : Consumer D) (i : Nat) : Loc D :=
  match c with
  | .popped it => if it.id = i then .popped else .retired
  | .began it => if it.id = i then .began else .retired
  | .serving it r p => if it.id = i then .serving r p else .retired
  | .ending it r => if it.id = i then .ending r else .retired
  | .computed it r => if it.id = i then .computed r else .retired
  | _ => .retired

namespace ServiceLane

def loc (s : ServiceLane D) (i : Nat) : Loc D :=
  if s.admitted.length ≤ i then .absent
  else if s.popped ≤ i then .queued
  else s.consumer.place i

/-- the rows that the lane produced for item `i` -/
def rows (s : ServiceLane D) (i : Nat) : List Result :=
  (s.produced.filter (fun x => x.1 == i)).map (fun x => x.2)

def view (i : Nat) (s : ServiceLane D) : Life D :=
  { item := s.admitted[i]?, loc := s.loc i, tok := s.tok i, prom := s.prom i
    owed := s.cancelling.count i, answers := s.answers i, produced := s.rows i }

variable {s s' : ServiceLane D} {i j : Nat} {r : Result}

theorem loc_absent (h : s.admitted.length ≤ i) : s.loc i = .absent := by
  rw [loc, if_pos h]

theorem loc_queued (h : i < s.admitted.length) (hp : s.popped ≤ i) : s.loc i = .queued := by
  rw [loc, if_neg (Nat.not_le.mpr h), if_pos hp]

theorem loc_popped (h : i < s.admitted.length) (hp : i < s.popped) : s.loc i = s.consumer.place i := by
  rw [loc, if_neg (Nat.not_le.mpr h), if_neg (Nat.not_le.mpr hp)]

/-- an item that the consumer does not hold -/
theorem place_other {c : Consumer D} (h : ∀ it, c.item? = some it → it.id ≠ i) :
    c.place i = .retired := by
  cases c with
  | popped it => exact if_neg (h it rfl)
  | began it => exact if_neg (h it rfl)
  | serving it r p => exact if_neg (h it rfl)
  | ending it r => exact if_neg (h it rfl)
  | computed it r => exact if_neg (h it rfl)
  | _ => rfl

theorem loc_congr (ha : s'.admitted = s.admitted) (hp : s'.popped = s.popped)
    (hc : s'.consumer.place i = s.consumer.place i) : s'.loc i = s.loc i := by
  unfold loc
  rw [ha, hp, hc]

theorem view_mk {item : Option (Item D)} {loc : Loc D} {tok : CancelToken} {prom : List Result}
    {owed : Nat} {answers : List Bool} {produced : List Result} (ha : s.admitted[i]? = item)
    (hl : s.loc i = loc) (ht : s.tok i = tok) (hp : s.prom i = prom)
    (ho : s.cancelling.count i = owed) (hw : s.answers i = answers) (hr : s.rows i = produced) :
    view i s = ⟨item, loc, tok, prom, owed, answers, produced⟩ := by
  rw [view, ha, hl, ht, hp, ho, hw, hr]

theorem view_congr (ha : s'.admitted = s.admitted) (hl : s'.loc i = s.loc i)
    (ht : s'.tok i = s.tok i) (hp : s'.prom i = s.prom i)
    (ho : s'.cancelling.count i = s.cancelling.count i) (hw : s'.answers i = s.answers i)
    (hr : s'.rows i = s.rows i) : view i s' = view i s :=
  view_mk (by rw [ha]) hl ht hp ho hw hr

theorem view_moves {l : Life D} (hl : Life.Step s.actorId (view i s) l) (e : view i s' = l) :
    view i s' = view i s ∨ Life.Step s.actorId (view i s) (view i s') := by
  rw [e]
  exact Or.inr hl

/-! ## each step, seen from item `i` -/

/-- an item that is admitted does not see a push -/
theorem view_push_old (hi : i < s.admitted.length) (req : Request D) (cancelable : Bool)
    (now : Int64) : view i (s.push req cancelable now) = view i s := by
  have hlen : (s.push req cancelable now).admitted.length = s.admitted.length + 1 :=
    List.length_append
  refine view_mk (List.getElem?_append_left hi) ?_ rfl rfl rfl rfl rfl
  by_cases hp : s.popped ≤ i
  · rw [loc_queued hi hp]
    exact loc_queued (by omega) hp
  · rw [loc_popped hi (by omega)]
    exact loc_popped (by omega) (Nat.not_le.mp hp)

theorem view_push (h : s.Fifo) (req : Request D) (cancelable : Bool) (now : Int64) :
    view i (s.push req cancelable now) = view i s ∨
      Life.Step s.actorId (view i s) (view i (s.push req cancelable now)) := by
  have hlen : (s.push req cancelable now).admitted.length = s.admitted.length + 1 :=
    List.length_append
  have hbound := h.bound
  rcases Nat.lt_trichotomy i s.admitted.length with hi | hi | hi
  · exact Or.inl (view_push_old hi req cancelable now)
  · -- the new item
    refine view_moves (.submit (s.newItem req cancelable now) (List.getElem?_eq_none (by omega)))
      (view_mk ?_ (loc_queued (by omega) ?_) rfl rfl rfl rfl rfl)
    · rw [hi]
      exact List.getElem?_concat_length
    · show s.popped ≤ i
      omega
  · -- an item to come
    refine Or.inl (view_mk ?_ ?_ rfl rfl rfl rfl rfl)
    · rw [List.getElem?_eq_none (by omega), List.getElem?_eq_none (by omega)]
    · rw [loc_absent (by omega), loc_absent (by omega)]

theorem view_pushAll_old (h : s.Fifo) (hi : i < s.admitted.length)
    (reqs : List (Request D × Int64)) : view i (s.pushAll reqs) = view i s := by
  induction reqs generalizing s with
  | nil => rfl
  | cons q reqs ih =>
    have hlt : i < (s.push q.1 false q.2).admitted.length := by
      show i < (s.admitted ++ [_]).length
      rw [List.length_append]
      omega
    exact (ih (h.push q.1 false q.2) hlt).trans (view_push_old hi q.1 false q.2)

theorem view_pushAll (h : s.Fifo) (reqs : List (Request D × Int64)) :
    view i (s.pushAll reqs) = view i s ∨
      Life.Step s.actorId (view i s) (view i (s.pushAll reqs)) := by
  induction reqs generalizing s with
  | nil => exact Or.inl rfl
  | cons q reqs ih =>
    by_cases hi : i < (s.push q.1 false q.2).admitted.length
    · -- the item is here by now, and no later push reaches it
      have hrest : view i (s.pushAll (q :: reqs)) = view i (s.push q.1 false q.2) :=
        view_pushAll_old (h.push q.1 false q.2) hi reqs
      rw [hrest]
      exact view_push h q.1 false q.2
    · have hsame : view i (s.push q.1 false q.2) = view i s := by
        have hlen : (s.push q.1 false q.2).admitted.length = s.admitted.length + 1 :=
          List.length_append
        refine view_mk ?_ ?_ rfl rfl rfl rfl rfl
        · rw [List.getElem?_eq_none (by omega), List.getElem?_eq_none (by omega)]
        · rw [loc_absent (by omega), loc_absent (by omega)]
      have hrest := ih (h.push q.1 false q.2)
      rw [hsame] at hrest
      exact hrest

/-- the place of an item that the consumer holds before and after a step -/
theorem Fifo.loc_moved (h : s.Fifo) {it : Item D} (hit : s.consumer.item? = some it)
    (ha : s'.admitted = s.admitted) (hp : s'.popped = s.popped) :
    s'.loc it.id = s'.consumer.place it.id := by
  obtain ⟨hpop, hget⟩ := h.held it hit
  have hlt := (List.getElem?_eq_some_iff.mp hget).1
  refine loc_popped ?_ ?_
  · rw [ha]
    exact hlt
  · omega

/-- a step of the consumer with the item that it holds; the others do not see it -/
theorem Fifo.view_moved (h : s.Fifo) {it : Item D} (hit : s.consumer.item? = some it)
    (ha : s'.admitted = s.admitted) (hp : s'.popped = s.popped)
    (ho : s'.cancelling = s.cancelling) (hw : s'.answers = s.answers)
    (hc : ∀ it', s'.consumer.item? = some it' → it' = it)
    (hother : ∀ j, j ≠ it.id → s'.tok j = s.tok j ∧ s'.prom j = s.prom j ∧ s'.rows j = s.rows j)
    {loc : Loc D} {tok : CancelToken} {prom produced : List Result}
    (hl : s'.consumer.place it.id = loc) (ht : s'.tok it.id = tok) (hpr : s'.prom it.id = prom)
    (hr : s'.rows it.id = produced)
    (hself : Life.Step s.actorId (view it.id s) ⟨s.admitted[it.id]?, loc, tok, prom,
      s.cancelling.count it.id, s.answers it.id, produced⟩) :
    view i s' = view i s ∨ Life.Step s.actorId (view i s) (view i s') := by
  by_cases hne : i = it.id
  · subst hne
    refine view_moves hself (view_mk (by rw [ha]) ?_ ht hpr (by rw [ho]) (by rw [hw]) hr)
    rw [h.loc_moved hit ha hp, hl]
  · obtain ⟨ht', hpr', hr'⟩ := hother i hne
    refine Or.inl (view_congr ha (loc_congr ha hp ?_) ht' hpr' (by rw [ho]) (by rw [hw]) hr')
    rw [place_other, place_other]
    · intro it' h'
      rw [hit] at h'
      cases h'
      exact Ne.symm hne
    · intro it' h'
      rw [hc it' h']
      exact Ne.symm hne

/-- the place of the item that the consumer holds -/
theorem Fifo.loc_is (h : s.Fifo) {c : Consumer D} (hc : s.consumer = c) {it : Item D}
    (hit : c.item? = some it) : s.loc it.id = c.place it.id := by
  subst hc
  exact h.loc_moved hit rfl rfl

/-- the rows of the items, one more for item `j` -/
theorem rows_append (hp : s'.produced = s.produced ++ [(j, r)]) :
    s'.rows i = if i = j then s.rows i ++ [r] else s.rows i := by
  unfold rows
  rw [hp, List.filter_append, List.map_append]
  by_cases hij : i = j
  · subst hij
    rw [if_pos rfl]
    simp
  · rw [if_neg hij]
    simp [Ne.symm hij]

/-- a lane keeps its name -/
theorem pushAll_actorId (reqs : List (Request D × Int64)) : (s.pushAll reqs).actorId = s.actorId := by
  induction reqs generalizing s with
  | nil => rfl
  | cons q reqs ih => exact ih

theorem step_actorId {a : Act D} (hs : Step s a s') : s'.actorId = s.actorId := by
  cases hs with
  | submitBulk hs => exact pushAll_actorId _
  | _ => rfl

/-- item `i` does not see the change of the lane, or its life takes a step -/
def Seen (i : Nat) (s s' : ServiceLane D) : Prop :=
  view i s' = view i s ∨ Life.Step s.actorId (view i s) (view i s')

theorem view_cancels {it : Item D} (hi : s.admitted[j]? = some it) (hc : it.cancelable = true) :
    Seen i s (s.cancelTok j) := by
  by_cases hne : i = j
  · subst hne
    refine view_moves (.cancel it hi hc) (view_mk rfl rfl (Function.update_self _ _ _) rfl ?_
      (Function.update_self _ _ _) rfl)
    show (if (s.tok i).cancel.2 = .fulfil then i :: s.cancelling else s.cancelling).count i =
      s.cancelling.count i + if (s.tok i).cancel.2 = .fulfil then 1 else 0
    split
    · rw [List.count_cons_self]
    · rfl
  · refine Or.inl (view_congr rfl rfl (Function.update_of_ne hne _ _) rfl ?_
      (Function.update_of_ne hne _ _) rfl)
    show (if _ then _ else _ : List Nat).count i = s.cancelling.count i
    split
    · rw [List.count_cons_of_ne (Ne.symm hne)]
    · rfl

theorem view_cancelFulfils {it : Item D} {now : Int64} (hi : s.admitted[j]? = some it)
    (hm : j ∈ s.cancelling) :
    Seen i s { s.fulfil j (CancelToken.row s.actorId it.req.submitNs now) with
      cancelling := s.cancelling.erase j } := by
  by_cases hne : i = j
  · subst hne
    exact view_moves (.cancelFulfil it now hi (List.count_pos_iff.mpr hm))
      (view_mk rfl rfl rfl (Function.update_self _ _ _) List.count_erase_self rfl rfl)
  · exact Or.inl (view_congr rfl rfl rfl (Function.update_of_ne hne _ _)
      (List.count_erase_of_ne hne) rfl rfl)

theorem view_pops (h : s.Fifo) {it : Item D} {queue : List (Item D)} (hc : s.consumer = .waiting)
    (hq : s.queue = it :: queue) :
    Seen i s { s with
      queue := queue, popped := s.popped + 1, consumer := .popped it, active := true } := by
  obtain ⟨hid, hget⟩ := h.head hq
  have hlt := (List.getElem?_eq_some_iff.mp hget).1
  by_cases hne : i = it.id
  · subst hne
    refine view_moves (.pop it hget (loc_queued hlt (by omega))) (view_mk rfl ?_ rfl rfl rfl rfl rfl)
    rw [loc_popped]
    · exact if_pos rfl
    · exact hlt
    · show it.id < s.popped + 1
      omega
  · refine Or.inl (view_congr rfl ?_ rfl rfl rfl rfl rfl)
    have e : (s.popped + 1 ≤ i) = (s.popped ≤ i) := by
      rw [eq_iff_iff]
      omega
    have hplace : (Consumer.popped it).place i = s.consumer.place i := by
      rw [hc]
      exact if_neg (Ne.symm hne)
    unfold loc
    show (if s.admitted.length ≤ i then _ else if s.popped + 1 ≤ i then _
      else (Consumer.popped it).place i) = _
    rw [hplace]
    simp only [e]

/-- the consumer goes from one place where it holds no item to another -/
theorem view_idle (ha : s'.admitted = s.admitted) (hp : s'.popped = s.popped)
    (hc : s.consumer.item? = none) (hc' : s'.consumer.item? = none) (ht : s'.tok = s.tok)
    (hpr : s'.prom = s.prom) (ho : s'.cancelling = s.cancelling) (hw : s'.answers = s.answers)
    (hr : s'.produced = s.produced) : Seen i s s' := by
  refine Or.inl (view_congr ha (loc_congr ha hp ?_) (by rw [ht]) (by rw [hpr]) (by rw [ho])
    (by rw [hw]) (by unfold rows; rw [hr]))
  rw [place_other, place_other]
  · intro it e
    rw [hc] at e
    cases e
  · intro it e
    rw [hc'] at e
    cases e

/-- **Every step of the lane leaves the life of item `i` alone or is a step of it.** -/
theorem view_step (h : s.Fifo) {a : Act D} (hs : Step s a s') :
    Seen i s s' := by
  cases hs with
  | submit hs => exact view_push h _ _ _
  | accept hs hd => exact view_push h _ _ _
  | reject hs hd => exact Or.inl rfl
  | submitBulk hs => exact view_pushAll h _
  | cancel hi hc => exact view_cancels hi hc
  | cancelFulfil hi hm => exact view_cancelFulfils hi hm
  | pop hc hq => exact view_pops h hc hq
  | exit hc hq hs => exact view_idle rfl rfl (by rw [hc]; rfl) rfl rfl rfl rfl rfl rfl
  | @begins it hc ht hb =>
    have hit : s.consumer.item? = some it := by rw [hc]; rfl
    refine h.view_moved hit rfl rfl rfl rfl (fun _ e => (Option.some.inj e).symm) ?_ (if_pos rfl)
      (Function.update_self _ _ _) rfl rfl
      (.begins it (h.held it hit).2 ((h.loc_is hc rfl).trans (if_pos rfl)) ht hb)
    exact fun j hj => ⟨Function.update_of_ne hj _ _, rfl, rfl⟩
  | @skips it hc ht hb =>
    have hit : s.consumer.item? = some it := by rw [hc]; rfl
    exact h.view_moved hit rfl rfl rfl rfl (fun _ e => nomatch e) (fun _ _ => ⟨rfl, rfl, rfl⟩) rfl
      rfl rfl rfl (.skips it (h.held it hit).2 ((h.loc_is hc rfl).trans (if_pos rfl)) ht hb)
  | @beginsBare it hc ht =>
    have hit : s.consumer.item? = some it := by rw [hc]; rfl
    exact h.view_moved hit rfl rfl rfl rfl (fun _ e => (Option.some.inj e).symm)
      (fun _ _ => ⟨rfl, rfl, rfl⟩) (if_pos rfl) rfl rfl rfl
      (.beginsBare it (h.held it hit).2 ((h.loc_is hc rfl).trans (if_pos rfl)) ht)
  | @start it now hc =>
    have hit : s.consumer.item? = some it := by rw [hc]; rfl
    exact h.view_moved hit rfl rfl rfl rfl (fun _ e => (Option.some.inj e).symm)
      (fun _ _ => ⟨rfl, rfl, rfl⟩) (if_pos rfl) rfl rfl rfl
      (.start it now (h.held it hit).2 ((h.loc_is hc rfl).trans (if_pos rfl)))
  | @ends it r p out now hc hr =>
    have hit : s.consumer.item? = some it := by rw [hc]; rfl
    refine h.view_moved hit rfl rfl rfl rfl (fun _ e => (Option.some.inj e).symm) ?_ (if_pos rfl)
      (Function.update_self _ _ _) rfl rfl
      (.ends it r p out (h.held it hit).2 ((h.loc_is hc rfl).trans (if_pos rfl)) hr)
    exact fun j hj => ⟨Function.update_of_ne hj _ _, rfl, rfl⟩
  | @effect it r p p' now tk hc hr hp =>
    have hit : s.consumer.item? = some it := by rw [hc]; rfl
    refine h.view_moved hit rfl rfl rfl rfl (fun _ e => (Option.some.inj e).symm) ?_ (if_pos rfl)
      (Function.update_self _ _ _) rfl rfl
      (.effect it r p p' now tk (h.held it hit).2 ((h.loc_is hc rfl).trans (if_pos rfl)) hp)
    exact fun j hj => ⟨Function.update_of_ne hj _ _, rfl, rfl⟩
  | @finish it r now hc =>
    have hit : s.consumer.item? = some it := by rw [hc]; rfl
    exact h.view_moved hit rfl rfl rfl rfl (fun _ e => (Option.some.inj e).symm)
      (fun _ _ => ⟨rfl, rfl, rfl⟩) (if_pos rfl) rfl rfl rfl
      (.finish it r now (h.held it hit).2 ((h.loc_is hc rfl).trans (if_pos rfl)))
  | @setValue it r hc =>
    have hit : s.consumer.item? = some it := by rw [hc]; rfl
    refine h.view_moved hit rfl rfl rfl rfl (fun _ e => nomatch e) ?_ rfl rfl
      (Function.update_self _ _ _) ((rows_append rfl).trans (if_pos rfl))
      (.setValue it r (h.held it hit).2 ((h.loc_is hc rfl).trans (if_pos rfl)))
    exact fun j hj => ⟨rfl, Function.update_of_ne hj _ _, (rows_append rfl).trans (if_neg hj)⟩
  | clearActive hc => exact view_idle rfl rfl (by rw [hc]; rfl) rfl rfl rfl rfl rfl rfl
  | dtorBegin hd => exact Or.inl rfl
  | join hd hc => exact Or.inl rfl

/-- **What the life of an item keeps, every reachable lane keeps for every item.** -/
theorem view_inv {impl : LaneImpl} {hex : String} {diag : Bool} {P : Life D → Prop} (h0 : P {})
    (hP : ∀ l l', P l → Life.Step (impl.actorPrefix ++ hex) l l' → P l')
    (h : Reach ServiceLane.step (create impl hex diag) s) (i : Nat) : P (view i s) := by
  have hI : ∀ (s : ServiceLane D) a s', (s.Fifo ∧ s.actorId = impl.actorPrefix ++ hex) →
      ServiceLane.step s a = some s' → (s'.Fifo ∧ s'.actorId = impl.actorPrefix ++ hex) := by
    rintro s a s' ⟨hf, hid⟩ hs
    exact ⟨hf.step (step_sound hs), (step_actorId (step_sound hs)).trans hid⟩
  refine h.view_inv (R := Life.Step (impl.actorPrefix ++ hex)) hI ?_ hP
    ⟨fifo_create impl hex diag, rfl⟩ h0
  rintro s a s' ⟨hf, hid⟩ hs
  have hv := view_step (i := i) hf (step_sound hs)
  rw [Seen, hid] at hv
  exact hv

end ServiceLane

end

end Harness

end RayX
