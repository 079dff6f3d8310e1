import RayX.Actor.Registry
import RayX.Lane.Drain
import RayX.Lib.Replay

/-!
# One actor lane against its sequential counter

A `SerialBlocking` lane whose items are counter calls, seen as a concurrent execution of the
sequential counter.

* `counterAfter`   the counter after the completed calls among the first `n` admitted ones;
* `Lin`            the invariant: the counter is the replay of the completed calls, a row has the
                   value its call has in that replay, and at most one body is under way, which
                   keeps its weakest precondition;
* `Lin.step`       **every step of the lane keeps it**, `Lin.push` every admission.
-/

namespace RayX
open Sys

/-- a call as the engine admits it -/
structure MethodCall where
  method : String
  args : OpArgs

/-- the sequential calls of a history -/
def callAt (log : List MethodCall) (i : Nat) : Option Call :=
  log[i]?.bind fun c => callOf c.method c.args

/-- some row of the promise is a completed one -/
def completedRow (rows : List RuntimeResult) : Bool := rows.any fun r => r.status == .completed

def completedCalls (log : List MethodCall) (prom : Nat → List RuntimeResult) (n : Nat) : List Call :=
  committed (callAt log) (fun i => completedRow (prom i)) n

def counterAfter (v₀ : Int64) (log : List MethodCall) (prom : Nat → List RuntimeResult) (n : Nat) :
    Int64 :=
  replay Call.apply v₀ (completedCalls log prom n)

theorem completedRow_iff {rows : List RuntimeResult} :
    completedRow rows = true ↔ ∃ r ∈ rows, r.status = .completed := by
  unfold completedRow
  rw [List.any_eq_true]
  simp only [beq_iff_eq]

theorem completedRow_concat (rows : List RuntimeResult) (r : RuntimeResult) :
    completedRow (rows ++ [r]) = (completedRow rows || r.status == .completed) := by
  simp [completedRow]

/-- a row that is not a completed one leaves the history as it is -/
theorem completedRow_update {prom : Nat → List RuntimeResult} {i : Nat} {r : RuntimeResult}
    (hr : r.status ≠ .completed) (j : Nat) :
    completedRow (Function.update prom i (prom i ++ [r]) j) = completedRow (prom j) := by
  by_cases hj : j = i
  · rw [hj, Function.update_self, completedRow_concat]
    simp [hr]
  · rw [Function.update_of_ne hj]

theorem counterAfter_congr {v₀ : Int64} {log log' : List MethodCall}
    {prom prom' : Nat → List RuntimeResult} {n : Nat}
    (hl : ∀ i, i < n → log'[i]? = log[i]?)
    (hd : ∀ i, i < n → completedRow (prom' i) = completedRow (prom i)) :
    counterAfter v₀ log' prom' n = counterAfter v₀ log prom n := by
  have ho : ∀ i, i < n → callAt log' i = callAt log i := by
    intro i hi
    rw [callAt, callAt, hl i hi]
  unfold counterAfter completedCalls
  rw [committed_congr ho hd]

theorem counterAfter_stable {v₀ : Int64} {log : List MethodCall}
    {prom : Nat → List RuntimeResult} {m n : Nat} (hm : m ≤ n)
    (hd : ∀ i, m ≤ i → i < n → completedRow (prom i) = false) :
    counterAfter v₀ log prom n = counterAfter v₀ log prom m := by
  unfold counterAfter completedCalls
  rw [committed_stable hm hd]

theorem counterAfter_done {v₀ : Int64} {log : List MethodCall}
    {prom : Nat → List RuntimeResult} {n : Nat} {c : Call} (hd : completedRow (prom n) = true)
    (hc : callAt log n = some c) :
    counterAfter v₀ log prom (n + 1) = c.apply (counterAfter v₀ log prom n) := by
  unfold counterAfter completedCalls
  rw [committed_succ_done hd hc, replay_concat]

/-! ## the counter over the integers -/

def Call.applyInt : Call → Int → Int
  | .add delta, v => v + delta.toInt
  | .get, v => v
  | .reset w, _ => w.toInt
  | .busyGet _, v => v

def InInt64 (v : Int) : Prop := int64Min ≤ v ∧ v ≤ int64Max

instance (v : Int) : Decidable (InInt64 v) := inferInstanceAs (Decidable (_ ∧ _))

theorem Call.apply_toInt (c : Call) (v : Int64) (h : InInt64 (c.applyInt v.toInt)) :
    (c.apply v).toInt = c.applyInt v.toInt := by
  cases c with
  | add delta =>
    obtain ⟨hlo, hhi⟩ : int64Min ≤ v.toInt + delta.toInt ∧ v.toInt + delta.toInt ≤ int64Max := h
    unfold int64Min at hlo
    unfold int64Max at hhi
    show (v + delta).toInt = v.toInt + delta.toInt
    rw [Int64.toInt_add]
    apply Int.bmod_eq_of_le <;> omega
  | _ => rfl

/-- while the sums stay inside `int64`, the replay is the one over the integers -/
theorem counterAfter_toInt {v₀ : Int64} {log : List MethodCall} {prom : Nat → List RuntimeResult}
    {n : Nat} (h : ∀ k, k ≤ n → InInt64 (replay Call.applyInt v₀.toInt (completedCalls log prom k))) :
    (counterAfter v₀ log prom n).toInt =
      replay Call.applyInt v₀.toInt (completedCalls log prom n) :=
  replay_map (fun c v _ hc => c.apply_toInt v hc) v₀ h

/-! ## the invariant -/

/-- the item runs the body of a registered method on the arguments of the call -/
def Matches (actorId : String) (it : Item ActorState) (c : MethodCall) : Prop :=
  ∃ e, counterMethods.lookup c.method = some e ∧ it.task = makeMethodTask e.fn c.args actorId

/-- a call that is under way since the counter was `v` -/
def Serving (c : MethodCall) (v : Int64) : Svc ActorState → ActorState → Prop
  | .body t, st => t.wp (taskPost c.method c.args v) st
  | .outcome r, st => taskPost c.method c.args v (.ok r) st
  | .settled r, st => taskPost c.method c.args v (.ok r) st
  | .fulfilled, _ => False

/-- what a lane does on its own: anything but an admission -/
def Act.internal {σ : Type} : Act σ → Bool
  | .submit _ _ _ => false
  | .trySubmit _ _ _ _ => false
  | _ => true

namespace Lane
variable {s s' : Lane ActorState} {v₀ : Int64} {log : List MethodCall}

structure Lin (v₀ : Int64) (log : List MethodCall) (s : Lane ActorState) : Prop where
  serial : s.mode = .serialBlocking
  matched : List.Forall₂ (Matches s.actorId) s.admitted log
  fresh : ∀ i, completedRow (s.prom i) = true → i + s.queue.length < s.admitted.length ∧
    ∀ it, s.consumer.item? = some it → i < it.id
  rows : ∀ i r, r ∈ s.prom i → r.status = .completed → ∃ c, callAt log i = some c ∧
    r.hasValue = true ∧ r.value = .int64 (c.apply (counterAfter v₀ log s.prom i))
  idle : (∀ i, s.svc i = none) →
    s.state = .counter ⟨counterAfter v₀ log s.prom s.admitted.length⟩
  busy : ∀ i v, s.svc i = some v → ∃ c, log[i]? = some c ∧
    Serving c (counterAfter v₀ log s.prom s.admitted.length) v s.state

theorem lin_create (actorId : String) (maxInflight : Int) (v₀ : Int64) :
    Lin v₀ [] (create actorId .serialBlocking maxInflight (.counter ⟨v₀⟩)) where
  serial := rfl
  matched := .nil
  fresh := by simp [create, completedRow]
  rows := by simp [create]
  idle := fun _ => rfl
  busy := by simp [create]

/-- a serial lane serves at most one item, and its consumer holds it -/
theorem Wf.serial_serves (h : Wf s) (hm : s.mode = .serialBlocking) {i : Nat} (hv : s.svc i ≠ none) :
    s.consumer.serves i = true := by
  by_contra hc
  have hmem := (h.toks i).mpr (Or.inr ⟨hv, Bool.eq_false_iff.mpr hc⟩)
  rw [h.serial hm] at hmem
  cases hmem

theorem serves_inj {c : Consumer ActorState} {i j : Nat} (hi : c.serves i = true)
    (hj : c.serves j = true) : i = j := by
  cases c with
  | serving it => exact (beq_iff_eq.mp hi).symm.trans (beq_iff_eq.mp hj)
  | _ => cases hi

theorem Wf.serial_svc (h : Wf s) (hm : s.mode = .serialBlocking) {i j : Nat}
    (hv : s.svc i ≠ none) (hj : j ≠ i) : s.svc j = none := by
  by_contra hne
  exact hj (serves_inj (h.serial_serves hm hne) (h.serial_serves hm hv))

/-- nothing is in service while the consumer does not serve -/
theorem Wf.serial_idle (h : Wf s) (hm : s.mode = .serialBlocking)
    (hc : ∀ i, s.consumer.serves i = false) (i : Nat) : s.svc i = none := by
  by_contra hne
  have hserve := h.serial_serves hm hne
  rw [hc i] at hserve
  cases hserve

/-- only a body changes the counter -/
theorem step_state {a : Act ActorState} (hs : Step s a s') (ha : ∀ i now, a ≠ .serve i now) :
    s'.state = s.state := by
  cases hs with
  | effect hv hr ht => exact absurd rfl (ha _ _)
  | _ => rfl

theorem Lin.call (h : Lin v₀ log s) {i : Nat} {it : Item ActorState}
    (hi : s.admitted[i]? = some it) : ∃ c, log[i]? = some c ∧ Matches s.actorId it c := by
  have hlen := h.matched.length_eq
  obtain ⟨hlt, hget⟩ := List.getElem?_eq_some_iff.mp hi
  refine ⟨log[i], List.getElem?_eq_getElem (hlen ▸ hlt), ?_⟩
  rw [← hget]
  exact List.Forall₂.get h.matched hlt (hlen ▸ hlt)

/-! ## steps that leave the history as it is -/

/-- the consumer moves on, the queue may lose its head -/
theorem Lin.move (h : Lin v₀ log s) (hm : s'.mode = s.mode) (hid : s'.actorId = s.actorId)
    (ha : s'.admitted = s.admitted) (hp : s'.prom = s.prom) (hv : s'.svc = s.svc)
    (hst : s'.state = s.state) (hq : s'.queue.length ≤ s.queue.length)
    (hc : ∀ it i, s'.consumer.item? = some it → i + s.queue.length < s.admitted.length →
      (∀ it, s.consumer.item? = some it → i < it.id) → i < it.id) : Lin v₀ log s' where
  serial := hm.trans h.serial
  matched := by
    rw [hid, ha]
    exact h.matched
  fresh := by
    intro i hi
    rw [hp] at hi
    obtain ⟨h1, h2⟩ := h.fresh i hi
    rw [ha]
    exact ⟨by omega, fun it hit => hc it i hit h1 h2⟩
  rows := by
    rw [hp]
    exact h.rows
  idle := by
    rw [hv, hst, hp, ha]
    exact h.idle
  busy := by
    rw [hv, hst, hp, ha]
    exact h.busy

/-- nothing the lane keeps for its calls moves -/
theorem Lin.keep (h : Lin v₀ log s) (hm : s'.mode = s.mode) (hid : s'.actorId = s.actorId)
    (ha : s'.admitted = s.admitted) (hp : s'.prom = s.prom) (hv : s'.svc = s.svc)
    (hst : s'.state = s.state) (hq : s'.queue = s.queue)
    (hc : s'.consumer.item? = none ∨ s'.consumer.item? = s.consumer.item?) : Lin v₀ log s' := by
  refine h.move hm hid ha hp hv hst (by rw [hq]) ?_
  intro it i hit _ hlt
  rcases hc with hc | hc
  · rw [hc] at hit
    cases hit
  · rw [hc] at hit
    exact hlt it hit

/-- a cancelled row changes neither the replay nor the counter -/
theorem Lin.cancelRow (h : Lin v₀ log s) (i : Nat) (now : Int64) :
    Lin v₀ log (s.fulfil i (Token.cancelRow s.actorId now)) := by
  have hstatus : (Token.cancelRow s.actorId now).status ≠ .completed := Status.noConfusion
  have hrow : ∀ j, completedRow ((s.fulfil i (Token.cancelRow s.actorId now)).prom j) =
      completedRow (s.prom j) := completedRow_update hstatus
  have hafter : ∀ n, counterAfter v₀ log (s.fulfil i (Token.cancelRow s.actorId now)).prom n =
      counterAfter v₀ log s.prom n := by
    intro n
    exact counterAfter_congr (fun _ _ => rfl) (fun j _ => hrow j)
  refine { h with fresh := ?_, rows := ?_, idle := ?_, busy := ?_ }
  · intro j hj
    rw [hrow] at hj
    exact h.fresh j hj
  · intro j r hr hc
    rw [hafter]
    apply h.rows j r _ hc
    by_cases hj : j = i
    · subst hj
      rw [show (s.fulfil j (Token.cancelRow s.actorId now)).prom j =
        s.prom j ++ [Token.cancelRow s.actorId now] from Function.update_self _ _ _] at hr
      rcases List.mem_append.mp hr with hr | hr
      · exact hr
      · rw [List.mem_singleton.mp hr] at hc
        exact absurd hc hstatus
    · rw [show (s.fulfil i (Token.cancelRow s.actorId now)).prom j = s.prom j from
        Function.update_of_ne hj _ _] at hr
      exact hr
  · rw [hafter]
    exact h.idle
  · rw [hafter]
    exact h.busy

/-! ## admission -/

theorem Lin.push (h : Lin v₀ log s) {c : MethodCall} {e : OpEntry ActorState}
    (he : counterMethods.lookup c.method = some e) (cc : Int) (policy : DispatchPolicy) :
    Lin v₀ (log ++ [c]) (s.push (makeMethodTask e.fn c.args s.actorId) cc policy) := by
  have hlen := h.matched.length_eq
  have hlog : ∀ i, i < s.admitted.length → (log ++ [c])[i]? = log[i]? :=
    fun i hi => List.getElem?_append_left (hlen ▸ hi)
  have hlt : ∀ i, completedRow (s.prom i) = true → i < s.admitted.length := by
    intro i hi
    have := (h.fresh i hi).1
    omega
  have hafter : ∀ n, n ≤ s.admitted.length →
      counterAfter v₀ (log ++ [c]) s.prom n = counterAfter v₀ log s.prom n := by
    intro n hn
    exact counterAfter_congr (fun i hi => hlog i (by omega)) (fun _ _ => rfl)
  have htotal : counterAfter v₀ (log ++ [c]) s.prom (s.admitted.length + 1) =
      counterAfter v₀ log s.prom s.admitted.length := by
    rw [← hafter _ (Nat.le_refl _)]
    refine counterAfter_stable (Nat.le_succ _) ?_
    intro i hi _
    by_contra hd
    have := hlt i ((Bool.not_eq_false _).mp hd)
    omega
  have hnew : (s.push (makeMethodTask e.fn c.args s.actorId) cc policy).admitted.length =
      s.admitted.length + 1 := by
    simp [Lane.push]
  refine { h with matched := ?_, fresh := ?_, rows := ?_, idle := ?_, busy := ?_ }
  · exact List.rel_append h.matched (.cons ⟨e, he, rfl⟩ .nil)
  · intro i hi
    obtain ⟨h1, h2⟩ := h.fresh i hi
    refine ⟨?_, h2⟩
    rw [hnew]
    show i + (s.queue ++ [_]).length < _
    rw [List.length_append, List.length_singleton]
    omega
  · intro i r hr hc
    have hi := hlt i (completedRow_iff.mpr ⟨r, hr, hc⟩)
    obtain ⟨call, hcall, hval⟩ := h.rows i r hr hc
    refine ⟨call, ?_, ?_⟩
    · rw [callAt, hlog i hi]
      exact hcall
    · rw [show (s.push (makeMethodTask e.fn c.args s.actorId) cc policy).prom = s.prom from rfl,
        hafter i (Nat.le_of_lt hi)]
      exact hval
  · intro hidle
    rw [hnew, show (s.push (makeMethodTask e.fn c.args s.actorId) cc policy).prom = s.prom from rfl,
      htotal]
    exact h.idle hidle
  · intro i v hv
    obtain ⟨call, hcall, hserve⟩ := h.busy i v hv
    refine ⟨call, ?_, ?_⟩
    · have hi : i < log.length := (List.getElem?_eq_some_iff.mp hcall).1
      rw [hlog i (hlen ▸ hi)]
      exact hcall
    · rw [hnew, show (s.push (makeMethodTask e.fn c.args s.actorId) cc policy).prom = s.prom
        from rfl, htotal]
      exact hserve

/-! ## service -/

/-- the only item in service moves on -/
theorem Lin.serve (h : Lin v₀ log s) (hw : Wf s) {i : Nat} {v w : Svc ActorState}
    (hv : s.svc i = some v) {st : ActorState}
    (hs : ∀ c, Serving c (counterAfter v₀ log s.prom s.admitted.length) v s.state →
      Serving c (counterAfter v₀ log s.prom s.admitted.length) w st) :
    Lin v₀ log { s.setSvc i (some w) with state := st } := by
  have hne : s.svc i ≠ none := by
    rw [hv]
    exact Option.some_ne_none v
  refine { h with idle := ?_, busy := ?_ }
  · intro hidle
    have hi : Function.update s.svc i (some w) i = none := hidle i
    rw [Function.update_self] at hi
    cases hi
  · intro j v' hj
    by_cases hji : j = i
    · subst hji
      have hj' : Function.update s.svc j (some w) j = some v' := hj
      rw [Function.update_self] at hj'
      cases hj'
      obtain ⟨c, hc, hserve⟩ := h.busy j v hv
      exact ⟨c, hc, hs c hserve⟩
    · have hj' : Function.update s.svc i (some w) j = some v' := hj
      rw [Function.update_of_ne hji, hw.serial_svc h.serial hne hji] at hj'
      cases hj'

/-- a token does not matter to the history -/
theorem Lin.setTok (h : Lin v₀ log s) (i : Nat) (t : Token) : Lin v₀ log (s.setTok i t) :=
  h.keep rfl rfl rfl rfl rfl rfl rfl (Or.inr rfl)

/-- a body starts on the counter that the completed calls leave -/
theorem Lin.starts (h : Lin v₀ log s) (hw : Wf s) {it : Item ActorState}
    (hc : s.consumer = .began it) :
    Lin v₀ log { s.setSvc it.id (some (.body it.task)) with consumer := .serving it } := by
  have hit : s.consumer.item? = some it := by rw [hc]; rfl
  have hidle : ∀ i, s.svc i = none :=
    hw.serial_idle h.serial (fun i => by rw [hc]; rfl)
  refine { h with fresh := ?_, idle := ?_, busy := ?_ }
  · intro i hi
    obtain ⟨h1, h2⟩ := h.fresh i hi
    refine ⟨h1, ?_⟩
    intro it' hit'
    cases hit'
    exact h2 it hit
  · intro hnone
    have hi : Function.update s.svc it.id (some (.body it.task)) it.id = none := hnone it.id
    rw [Function.update_self] at hi
    cases hi
  · intro j v hj
    by_cases hji : j = it.id
    · subst hji
      have hj' : Function.update s.svc it.id (some (.body it.task)) it.id = some v := hj
      rw [Function.update_self] at hj'
      cases hj'
      obtain ⟨c, hlog, e, he, htask⟩ := h.call (hw.held it hit).1
      refine ⟨c, hlog, ?_⟩
      show it.task.wp _ s.state
      rw [htask, h.idle hidle]
      exact makeMethodTask_wp he c.args s.actorId _
    · have hj' : Function.update s.svc it.id (some (.body it.task)) j = some v := hj
      rw [Function.update_of_ne hji, hidle j] at hj'
      cases hj'

/-- **The row of a served call is the next value of the replay.** -/
theorem Lin.retire (h : Lin v₀ log s) (hw : Wf s) {i : Nat} {r : RuntimeResult}
    (hv : s.svc i = some (.settled r)) (hc : s.consumer.serves i = true) :
    Lin v₀ log { (s.fulfil i r).setSvc i none with consumer := s.afterItem } := by
  obtain ⟨it, hit, hid⟩ : ∃ it, s.consumer.item? = some it ∧ it.id = i := by
    cases hcons : s.consumer with
    | serving it =>
      rw [hcons] at hc
      exact ⟨it, rfl, beq_iff_eq.mp hc⟩
    | _ =>
      rw [hcons] at hc
      cases hc
  have hpop := (hw.held it hit).2
  rw [hid] at hpop
  -- no call from `i` on has completed
  have hnone : ∀ j, i ≤ j → completedRow (s.prom j) = false := by
    intro j hj
    by_contra hd
    have hlt := (h.fresh j ((Bool.not_eq_false _).mp hd)).2 it hit
    omega
  have hat : counterAfter v₀ log s.prom s.admitted.length = counterAfter v₀ log s.prom i :=
    counterAfter_stable (by omega) (fun j hj _ => hnone j hj)
  obtain ⟨c, hlog, hserve⟩ := h.busy i _ hv
  rw [hat] at hserve
  let prom' := Function.update s.prom i (s.prom i ++ [r])
  have hother : ∀ j, j ≠ i → prom' j = s.prom j := fun j hj => Function.update_of_ne hj _ _
  have hself : prom' i = s.prom i ++ [r] := Function.update_self _ _ _
  have hbefore : ∀ n, n ≤ i → counterAfter v₀ log prom' n = counterAfter v₀ log s.prom n := by
    intro n hn
    refine counterAfter_congr (fun _ _ => rfl) ?_
    intro j hj
    rw [hother j (by omega)]
  have hdone : completedRow (prom' i) = (r.status == .completed) := by
    rw [hself, completedRow_concat, hnone i (Nat.le_refl i), Bool.false_or]
  -- what the row says, and the counter that it leaves
  have hend : s.state = .counter ⟨counterAfter v₀ log prom' (i + 1)⟩ ∧
      (r.status = .completed → ∃ call, callAt log i = some call ∧ r.hasValue = true ∧
        r.value = .int64 (call.apply (counterAfter v₀ log prom' i))) := by
    rcases hserve with ⟨hst, call, hcall, hhas, hval, hstate⟩ | ⟨hst, hstate⟩
    · have hat' : callAt log i = some call := by
        rw [callAt, hlog]
        exact hcall
      rw [counterAfter_done (by rw [hdone, hst]; rfl) hat', hbefore i (Nat.le_refl i)]
      exact ⟨hstate, fun _ => ⟨call, hat', hhas, hval⟩⟩
    · have hskip : counterAfter v₀ log prom' (i + 1) = counterAfter v₀ log prom' i := by
        refine counterAfter_stable (Nat.le_succ i) ?_
        intro j h1 h2
        obtain rfl : j = i := by omega
        rw [hdone]
        simp [hst]
      rw [hskip, hbefore i (Nat.le_refl i)]
      exact ⟨hstate, fun hcomp => absurd hcomp hst⟩
  have htotal : counterAfter v₀ log prom' s.admitted.length = counterAfter v₀ log prom' (i + 1) := by
    refine counterAfter_stable (by omega) ?_
    intro j hj _
    rw [hother j (by omega)]
    exact hnone j (by omega)
  refine { h with fresh := ?_, rows := ?_, idle := ?_, busy := ?_ }
  · intro j hj
    refine ⟨?_, ?_⟩
    · show j + s.queue.length < s.admitted.length
      have hle : j ≤ i := by
        by_contra hgt
        have hj' : completedRow (prom' j) = true := hj
        rw [hother j (by omega), hnone j (by omega)] at hj'
        cases hj'
      omega
    · intro it' hit'
      rw [show ({ (s.fulfil i r).setSvc i none with consumer := s.afterItem } : Lane ActorState).consumer
        = s.afterItem from rfl, afterItem_item] at hit'
      cases hit'
  · intro j r' hr' hcomp
    have hr'' : r' ∈ prom' j := hr'
    show ∃ call, callAt log j = some call ∧ r'.hasValue = true ∧
      r'.value = .int64 (call.apply (counterAfter v₀ log prom' j))
    have hj : j ≤ i := by
      by_contra hgt
      have hd := completedRow_iff.mpr ⟨r', hr'', hcomp⟩
      rw [hother j (by omega), hnone j (by omega)] at hd
      cases hd
    by_cases hji : j = i
    · subst hji
      rw [hself] at hr''
      rcases List.mem_append.mp hr'' with hold | hnew
      · have hd := completedRow_iff.mpr ⟨r', hold, hcomp⟩
        rw [hnone j (Nat.le_refl j)] at hd
        cases hd
      · rw [List.mem_singleton.mp hnew] at hcomp ⊢
        exact hend.2 hcomp
    · rw [hother j hji] at hr''
      rw [hbefore j hj]
      exact h.rows j r' hr'' hcomp
  · intro _
    show s.state = .counter ⟨counterAfter v₀ log prom' s.admitted.length⟩
    rw [htotal]
    exact hend.1
  · intro j v hj
    have hj' : Function.update s.svc i none j = some v := hj
    by_cases hji : j = i
    · rw [hji, Function.update_self] at hj'
      cases hj'
    · have hne : s.svc i ≠ none := by
        rw [hv]
        exact Option.some_ne_none _
      rw [Function.update_of_ne hji, hw.serial_svc h.serial hne hji] at hj'
      cases hj'

/-- **Every step of a serial lane but an admission keeps the history.** -/
theorem Lin.step (h : Lin v₀ log s) (hw : Wf s) {a : Act ActorState} (hs : Step s a s')
    (ha : a.internal = true) : Lin v₀ log s' := by
  cases hs with
  | submit _ => cases ha
  | accept _ _ => cases ha
  | reject _ _ => exact h
  | cancel hi => exact h.keep rfl rfl rfl rfl rfl rfl rfl (Or.inr rfl)
  | @cancelFulfil i now hi =>
    exact (h.cancelRow i now).keep rfl rfl rfl rfl rfl rfl rfl (Or.inr rfl)
  | @pop it queue hc hq hp =>
    obtain ⟨_, hlen⟩ := hw.head hq
    refine h.move rfl rfl rfl rfl rfl rfl ?_ ?_
    · show queue.length ≤ s.queue.length
      rw [hq, List.length_cons]
      exact Nat.le_succ _
    · intro it' i hit' hi _
      cases hit'
      omega
  | exit hc hq hstop => exact h.keep rfl rfl rfl rfl rfl rfl rfl (Or.inl rfl)
  | begins hc hb => exact h.keep rfl rfl rfl rfl rfl rfl rfl (Or.inr (by rw [hc]; rfl))
  | skips hc hb => exact h.keep rfl rfl rfl rfl rfl rfl rfl (Or.inl (afterItem_item s))
  | starts hc hh => exact h.starts hw hc
  | registers hc hh => exact absurd (Or.inl h.serial) hh
  | @launch it hc =>
    have hmem := (hw.toks it.id).mpr (Or.inl (by rw [hc]; exact beq_self_eq_true _))
    rw [hw.serial h.serial] at hmem
    cases hmem
  | @ends i now t r hv hr =>
    refine h.serve hw hv ?_
    intro c hserve
    have hpost := Prog.wp_result hr hserve
    cases r with
    | ok row => exact hpost
    | error ex => exact False.elim hpost
  | @effect i now t t' st tk hv hr ht =>
    exact (h.setTok i tk).serve (hw.setTok (hw.svc_lt (by rw [hv]; exact Option.some_ne_none _)) tk)
      hv (fun c hserve => Prog.wp_step ht hserve)
  | @markFinished i r hv =>
    exact (h.setTok i _).serve (hw.setTok (hw.svc_lt (by rw [hv]; exact Option.some_ne_none _)) _)
      hv (fun c hserve => hserve)
  | setHere hv hc => exact h.retire hw hv hc
  | setThere hv hc =>
    have hserve := hw.serial_serves h.serial (by rw [hv]; exact Option.some_ne_none _)
    rw [hc] at hserve
    cases hserve
  | release hv =>
    obtain ⟨c, _, hserve⟩ := h.busy _ _ hv
    exact False.elim hserve
  | clearTok hc => exact h.keep rfl rfl rfl rfl rfl rfl rfl (Or.inl rfl)
  | clearActive hc => exact h.keep rfl rfl rfl rfl rfl rfl rfl (Or.inl rfl)
  | collect hp => exact h.keep rfl rfl rfl rfl rfl rfl rfl (Or.inr rfl)
  | cpCancel hp => exact h.keep rfl rfl rfl rfl rfl rfl rfl (Or.inr rfl)
  | @cpFulfil i todo now hp =>
    exact (h.cancelRow i now).keep rfl rfl rfl rfl rfl rfl rfl (Or.inr rfl)
  | cpReturn hp => exact h.keep rfl rfl rfl rfl rfl rfl rfl (Or.inr rfl)
  | stopBegin hp => exact h.keep rfl rfl rfl rfl rfl rfl rfl (Or.inr rfl)
  | join hp hc => exact h.keep rfl rfl rfl rfl rfl rfl rfl (Or.inr rfl)
  | awaitInflight hp hi => exact h.keep rfl rfl rfl rfl rfl rfl rfl (Or.inr rfl)

end Lane

end RayX
