import RayX.Facade.Shutdown
import RayX.Ops.Overflow

/-!
# What a validated call gives

A call that the facade has validated does not fail: its future gives a value of the declared type, or
the call was cancelled.  The one exception is the operation `boom`.

* `BodyEnds`          how a body ends: a throw, the cancelled outcome, or a value of a type;
* `call_ends`         the bodies of validated calls do not throw, `boom` apart;
* `Life.Holds`        what every end of the body satisfies, every row of the item does;
* `results_typed`     **the results that futures give, by the call that made them**.
-/

namespace RayX
open Sys

/-! ## how bodies end -/

def OpValue.type : OpValue → OpType
  | .int64 _ => .int64
  | .double _ => .double

/-- the message of `boom` -/
def boomText : String := "boom: intentional failure for failure-path testing"

section
variable {σ : Type} {β : Type}

def BodyEnds (ty : OpType) : Except Exc OpOutcome → Prop
  | .ok o => o = .cancelled ∨ ∃ v : OpValue, o = .done v ∧ v.type = ty
  | .error _ => True

theorem ends_error {ty : OpType} (e : Exc) : BodyEnds ty (.error e) := trivial

theorem ends_done {ty : OpType} {v : OpValue} (h : v.type = ty) : BodyEnds ty (.ok (.done v)) :=
  Or.inr ⟨v, rfl, h⟩

theorem ends_pure {ty : OpType} {v : OpValue} (h : v.type = ty) :
    (pure (.done v) : Prog σ Exc OpOutcome).Always (BodyEnds ty) := ends_done h

theorem always_asInt64 {D : Except Exc β → Prop} {a : OpArgs} {i : Nat} {op : String}
    {f : Int64 → Prog σ Exc β} (hf : ∀ v, (f v).Always D) (hD : ∀ e, D (.error e)) :
    (liftM (asInt64 a i op) >>= f).Always D := by
  rcases asInt64 a i op with e | v
  · exact hD e
  · exact hf v

theorem always_asDouble {D : Except Exc β → Prop} {a : OpArgs} {i : Nat} {op : String}
    {f : Float → Prog σ Exc β} (hf : ∀ v, (f v).Always D) (hD : ∀ e, D (.error e)) :
    (liftM (asDouble a i op) >>= f).Always D := by
  rcases asDouble a i op with e | v
  · exact hD e
  · exact hf v

theorem always_guardArgs {D : Except Exc β → Prop} {bad : Bool} {msg : String}
    {f : Unit → Prog σ Exc β} (hf : (f ()).Always D) (hD : ∀ e, D (.error e)) :
    (guardArgs bad msg >>= f).Always D := by
  unfold guardArgs
  split
  · exact hD _
  · exact hf

/-- a checkpointed loop and what is made of its end -/
theorem always_loop {α : Type} {n : Nat} {ty : OpType} {loop : Prog σ Exc (Option α)}
    {v : α → OpValue} (h : loop.Polls (fun x => ∃ a, x = .ok (some a)) (fun x => x = .ok none) n)
    (hv : ∀ a, (v a).type = ty) :
    (loop >>= fun r => pure (loopOutcome v r)).Always (BodyEnds ty) := by
  have hloop : loop.Always (fun x => ∃ r, x = .ok r) :=
    h.always (fun x hx => hx.elim fun a ha => ⟨some a, ha⟩) (fun x hx => ⟨none, hx⟩)
  refine hloop.bind ?_ ?_
  · intro r _
    cases r with
    | none => exact Or.inl rfl
    | some a => exact ends_done (hv a)
  · intro e _
    exact ends_error e

theorem chainSum_ends (op : String) (a : OpArgs) :
    (chainSum (σ := σ) op a).Always (BodyEnds .int64) :=
  always_asInt64 (fun _ => always_asInt64 (fun _ => always_asInt64
    (fun _ => always_guardArgs (ends_pure rfl) ends_error) ends_error) ends_error) ends_error

/-- **Every registered body that ends with a value ends with one of its declared type.** -/
theorem op_ends {opId : String} {e : OpEntry σ} (h : findOp opId = some e) (a : OpArgs) :
    (e.fn a).Always (BodyEnds e.resultType) := by
  have hmem := findOp_mem h
  simp only [registry, hpxRegistry, List.cons_append, List.nil_append, List.mem_cons,
    List.not_mem_nil, or_false, Prod.mk.injEq] at hmem
  rcases hmem with ⟨rfl, rfl⟩ | ⟨rfl, rfl⟩ | ⟨rfl, rfl⟩ | ⟨rfl, rfl⟩ | ⟨rfl, rfl⟩ | ⟨rfl, rfl⟩ |
    ⟨rfl, rfl⟩ | ⟨rfl, rfl⟩ | ⟨rfl, rfl⟩ | ⟨rfl, rfl⟩ | ⟨rfl, rfl⟩ | ⟨rfl, rfl⟩ | ⟨rfl, rfl⟩
  · exact always_asInt64 (fun _ => ends_pure rfl) ends_error
  · exact always_asInt64 (fun _ => always_asInt64 (fun _ => ends_pure rfl) ends_error) ends_error
  · exact ends_error _
  · exact always_asInt64 (fun n => always_loop (runMaskedCheckpointLoop_polls n) (fun _ => rfl))
      ends_error
  · exact always_asDouble (fun _ => always_asDouble (fun _ => ends_pure rfl) ends_error) ends_error
  · exact chainSum_ends _ a
  · exact always_asInt64 (fun _ => always_asInt64
      (fun _ => always_guardArgs (ends_pure rfl) ends_error) ends_error) ends_error
  · exact always_asInt64 (fun ms => always_guardArgs
      (always_loop (parkLoop_polls ms) (fun _ => rfl)) ends_error) ends_error
  · exact chainSum_ends _ a
  · exact always_asInt64 (fun _ => always_asInt64 (fun _ => always_asInt64 (fun _ => always_asInt64
      (fun _ => always_guardArgs (ends_pure rfl) ends_error) ends_error) ends_error) ends_error)
      ends_error
  · exact always_asInt64 (fun _ => always_asInt64 (fun _ => always_asInt64
      (fun _ => always_guardArgs (ends_pure rfl) ends_error) ends_error) ends_error) ends_error
  · exact always_asInt64 (fun _ => always_asInt64
      (fun _ => always_guardArgs (ends_pure rfl) ends_error) ends_error) ends_error
  · exact always_asInt64 (fun _ => always_asInt64 (fun _ => always_asInt64
      (fun _ => always_guardArgs (ends_pure rfl) ends_error) ends_error) ends_error) ends_error

/-- the cancelled outcome or a value of the type, and no throw -/
def Gives (ty : OpType) : Except Exc OpOutcome → Prop
  | .ok o => o = .cancelled ∨ ∃ v : OpValue, o = .done v ∧ v.type = ty
  | .error _ => False

theorem gives_of {ty : OpType} {p : Prog σ Exc OpOutcome} (hs : p.Always (BodyEnds ty))
    (hn : NoThrow p) : p.Always (Gives ty) := by
  refine (hs.and hn).mono ?_
  rintro r ⟨hr, o, rfl⟩
  exact hr

/-- **The body of a validated operation does not throw**, unless it is `boom`. -/
theorem op_gives {opId : String} {args validated : List PyObj} {e : OpEntry σ} {a : OpArgs}
    {what : String} (hv : validateCall (.str opId) args opTable = .ok validated)
    (he : findOp opId = some e) (hm : marshalArgs what validated = .ok a) (hboom : opId ≠ "boom") :
    (e.fn a).Always (Gives e.resultType) := by
  obtain ⟨rfl, sig, hsig, ht, hd⟩ := validateCall_iff.1 hv
  rw [opTable_lookup he] at hsig
  cases hsig
  obtain ⟨a', rfl⟩ := argsTyped_pyOf ht
  rw [marshalArgs_pyOf] at hm
  cases hm
  exact gives_of (op_ends he a) ((registered_governed he hboom ht).1 hd).noThrow

end

/-- the method of a registered actor does not throw on typed arguments -/
theorem method_gives {m : String} {e : OpEntry ActorState} {a : OpArgs}
    (h : counterMethods.lookup m = some e) (ht : ArgsTyped e.argTypes (a.map pyOf)) :
    (e.fn a).Always (Gives .int64) := by
  have hdone : ∀ v : OpValue, v.type = .int64 → Gives .int64 (.ok (.done v)) :=
    fun v hv => Or.inr ⟨v, rfl, hv⟩
  have hcounter : ∀ {α : Type} {m : String} {f : CounterState → Prog ActorState Exc α}
      {D : Except Exc α → Prop}, (∀ c, (f c).Always D) → (asCounter m >>= f).Always D := by
    intro α m f D hf
    rw [asCounter_bind]
    intro st
    cases st with
    | counter c => exact hf c
  have hmem : (m, e) ∈ counterMethods := mem_of_lookup h
  simp only [counterMethods, List.mem_cons, List.not_mem_nil, or_false, Prod.mk.injEq] at hmem
  rcases hmem with ⟨rfl, rfl⟩ | ⟨rfl, rfl⟩ | ⟨rfl, rfl⟩ | ⟨rfl, rfl⟩
  · obtain ⟨x, rfl⟩ := argsTyped_one ht
    exact hcounter (fun c => hdone _ rfl)
  · obtain rfl := argsTyped_nil ht
    exact hcounter (fun c => hdone _ rfl)
  · obtain ⟨x, rfl⟩ := argsTyped_one ht
    exact hcounter (fun c => hdone _ rfl)
  · obtain ⟨n, rfl⟩ := argsTyped_one ht
    refine hcounter (fun c => ?_)
    have hloop : (runMaskedCheckpointLoop n : Prog ActorState Exc (Option UInt64)).Always
        (fun x => ∃ r, x = .ok r) :=
      (runMaskedCheckpointLoop_polls n).always (fun x hx => hx.elim fun acc h => ⟨some acc, h⟩)
        (fun x hx => ⟨none, hx⟩)
    refine hloop.bind ?_ ?_
    · intro r _
      cases r with
      | none => exact Or.inl rfl
      | some acc => exact hcounter (fun c => hdone _ rfl)
    · rintro e ⟨r, hr⟩
      cases hr

/-! ## the rows of a call -/

/-- a row of a call that gives a value of type `ty`, or of `boom` -/
def RowOf (boom : Bool) (ty : OpType) (actorId : String) (r : RuntimeResult) : Prop :=
  r.actorId = actorId ∧
    ((r.status = .cancelled ∧ r.hasValue = false ∧ r.error = "") ∨
      (boom = false ∧ r.status = .completed ∧ r.hasValue = true ∧ r.error = "" ∧ r.value.type = ty) ∨
      (boom = true ∧ r.status = .failed ∧ r.hasValue = false ∧ r.error = boomText))

section
variable {σ : Type}

/-- a service task has the outcome of its body in its row -/
theorem serviceTask_always {unknown actor : String} {body : Prog σ Exc OpOutcome}
    {D : Except Exc OpOutcome → Prop} {Q : RuntimeResult → Prop} (h : body.Always D)
    (hok : ∀ o t₁ t₂, D (.ok o) → Q (resultOf actor t₁ t₂ o))
    (herr : ∀ e t₁ t₂, D (.error e) → Q (resultOf actor t₁ t₂ (failure unknown e))) :
    (serviceTask unknown actor body).Always (fun r => ∃ row, r = .ok row ∧ Q row) := by
  intro t₁
  have hc : (body.catch_ (fun e => pure (failure unknown e))).Always
      (fun r => ∃ o, r = .ok o ∧ ∀ t₂, Q (resultOf actor t₁ t₂ o)) := by
    refine h.catch_ ?_ ?_
    · exact fun o ho => ⟨o, rfl, fun t₂ => hok o t₁ t₂ ho⟩
    · exact fun e he => ⟨_, rfl, fun t₂ => herr e t₁ t₂ he⟩
  refine hc.bind ?_ ?_
  · rintro o ⟨o', ho, hq⟩ t₂
    cases ho
    exact ⟨_, rfl, hq t₂⟩
  · rintro e ⟨o', ho, _⟩
    cases ho

theorem gives_row {ty : OpType} {actor : String} {o : OpOutcome} {t₁ t₂ : Int64}
    (h : Gives ty (.ok o)) : RowOf false ty actor (resultOf actor t₁ t₂ o) := by
  rcases h with rfl | ⟨v, rfl, hv⟩
  · exact ⟨rfl, Or.inl ⟨rfl, rfl, rfl⟩⟩
  · exact ⟨rfl, Or.inr (Or.inl ⟨rfl, rfl, rfl, rfl, hv⟩)⟩

theorem cancelRow_of (boom : Bool) (ty : OpType) (actor : String) (now : Int64) :
    RowOf boom ty actor (Token.cancelRow actor now) := ⟨rfl, Or.inl ⟨rfl, rfl, rfl⟩⟩

/-- the call behind an item: whether it is `boom`, and the type of its value -/
inductive Calls (actorId : String) (it : Item ActorState) : Bool → OpType → Prop where
  | op (opId : String) (args out : List PyObj) (e : OpEntry ActorState) (a : OpArgs)
      (hv : validateCall (.str opId) args opTable = .ok out) (he : findOp opId = some e)
      (hm : marshalArgs ("operation '" ++ opId ++ "'") out = .ok a)
      (ht : it.task = makeOpTask e.fn a actorId) :
      Calls actorId it (opId == "boom") e.resultType
  | method (m : String) (args out : List PyObj) (e : OpEntry ActorState) (a : OpArgs)
      (hv : validateActorCall (.str "counter") (.str m) args = .ok out)
      (he : counterMethods.lookup m = some e)
      (hm : marshalArgs ("method '" ++ m ++ "'") out = .ok a)
      (ht : it.task = makeMethodTask e.fn a actorId) : Calls actorId it false .int64

theorem Registered.calls {actorId : String} {it : Item ActorState} (h : Registered actorId it) :
    ∃ boom ty, Calls actorId it boom ty := by
  cases h with
  | op opId args out e oa id hv he hm => exact ⟨_, _, .op opId args out e oa hv he hm rfl⟩
  | method m args out e oa id hv he hm => exact ⟨_, _, .method m args out e oa hv he hm rfl⟩

/-- **Every end of the task of a validated call is a row of that call.** -/
theorem Calls.ends {actorId : String} {it : Item ActorState} {boom : Bool} {ty : OpType}
    (h : Calls actorId it boom ty) :
    it.task.Always (fun r => ∃ row, r = .ok row ∧ RowOf boom ty actorId row) := by
  cases h with
  | op opId args out e a hv he hm ht =>
    rw [ht]
    by_cases hboom : opId = "boom"
    · subst hboom
      have hfn : e.fn a = .throw (.runtimeError boomText) := by
        have hmem := findOp_mem he
        simp only [registry, hpxRegistry, List.cons_append, List.nil_append, List.mem_cons,
          List.not_mem_nil, or_false, Prod.mk.injEq] at hmem
        rcases hmem with ⟨hn, _⟩ | ⟨hn, _⟩ | ⟨_, rfl⟩ | ⟨hn, _⟩ | ⟨hn, _⟩ | ⟨hn, _⟩ | ⟨hn, _⟩ |
          ⟨hn, _⟩ | ⟨hn, _⟩ | ⟨hn, _⟩ | ⟨hn, _⟩ | ⟨hn, _⟩ | ⟨hn, _⟩
        case inr.inr.inl => rfl
        all_goals exact absurd hn (by decide)
      rw [makeOpTask, hfn]
      intro t₁ t₂
      exact ⟨_, rfl, rfl, Or.inr (Or.inr ⟨rfl, rfl, rfl, rfl⟩)⟩
    · have hb : (opId == "boom") = false := beq_eq_false_iff_ne.mpr hboom
      rw [hb]
      exact serviceTask_always (op_gives hv he hm hboom) (fun _ _ _ => gives_row)
        (fun _ _ _ he => he.elim)
  | method m args out e a hv he hm ht =>
    rw [ht]
    obtain ⟨entry, method, hentry, hmethod, rfl, htyped⟩ := validateActorCall_ok hv
    have hmem : ("counter", entry) ∈ actorRegistry := mem_of_lookup hentry
    simp only [actorRegistry, List.mem_singleton, Prod.mk.injEq] at hmem
    obtain ⟨_, rfl⟩ := hmem
    rw [he] at hmethod
    cases hmethod
    obtain ⟨a', rfl⟩ := argsTyped_pyOf htyped
    rw [marshalArgs_pyOf] at hm
    cases hm
    exact serviceTask_always (method_gives he htyped) (fun _ _ _ => gives_row)
      (fun _ _ _ he => he.elim)

end

/-! ## the rows of an item -/

section
variable {σ : Type} {Q : RuntimeResult → Prop}

/-- the rows that the service of an item has made or may still make satisfy `Q` -/
def Loc.holds (Q : RuntimeResult → Prop) : Loc σ → Prop
  | .service (.body t) => t.Always (fun r => ∃ row, r = .ok row ∧ Q row)
  | .service (.outcome r) => Q r
  | .service (.settled r) => Q r
  | _ => True

namespace Life
variable {l l' : Life σ}

/-- when every end of the body is in `Q`, so is every row -/
def Holds (Q : RuntimeResult → Prop) (l : Life σ) : Prop :=
  (l.loc = .absent → l.prom = [] ∧ l.owed = 0) ∧
    ((∀ it, l.item = some it → it.task.Always (fun r => ∃ row, r = .ok row ∧ Q row)) →
      l.loc.holds Q ∧ ∀ r ∈ l.prom, Q r)

theorem Holds.step {actorId : String} (hc : ∀ now, Q (Token.cancelRow actorId now)) (h : l.Holds Q)
    (hs : Step actorId l l') : l'.Holds Q := by
  obtain ⟨habs, hrows⟩ := h
  have hat : ∀ {loc}, l.loc = loc → (l.loc.holds Q ∧ ∀ r ∈ l.prom, Q r) → loc.holds Q := by
    intro loc hl h
    rw [← hl]
    exact h.1
  have hset : ∀ {r}, Q r → (∀ r ∈ l.prom, Q r) → ∀ r' ∈ l.prom ++ [r], Q r' := by
    intro r hr hp r' hr'
    rcases List.mem_append.mp hr' with hr' | hr'
    · exact hp r' hr'
    · rw [List.mem_singleton.mp hr']
      exact hr
  cases hs with
  | accept it hl =>
    refine ⟨fun h => (by cases h), fun _ => ⟨trivial, ?_⟩⟩
    rw [show ({ l with item := some it, loc := .queued } : Life σ).prom = [] from (habs hl).1]
    intro r hr
    cases hr
  | cancel hl => exact ⟨fun h => absurd h hl, hrows⟩
  | cancelFulfil now ho =>
    refine ⟨?_, fun hi => ⟨(hrows hi).1, hset (hc now) (hrows hi).2⟩⟩
    intro hl
    rw [(habs hl).2] at ho
    exact absurd ho (Nat.lt_irrefl 0)
  | pop hl => exact ⟨fun h => (by cases h), fun hi => ⟨trivial, (hrows hi).2⟩⟩
  | begins it hit hl hb => exact ⟨fun h => (by cases h), fun hi => ⟨trivial, (hrows hi).2⟩⟩
  | skips it hit hl hb => exact ⟨fun h => (by cases h), fun hi => ⟨trivial, (hrows hi).2⟩⟩
  | starts it hit hl => exact ⟨fun h => (by cases h), fun hi => ⟨hi it hit, (hrows hi).2⟩⟩
  | registers hl => exact ⟨fun h => (by cases h), fun hi => ⟨trivial, (hrows hi).2⟩⟩
  | launch it hit hl => exact ⟨fun h => (by cases h), fun hi => ⟨hi it hit, (hrows hi).2⟩⟩
  | ends t r hl hr =>
    refine ⟨fun h => (by cases h), fun hi => ⟨?_, (hrows hi).2⟩⟩
    have ht := hat hl (hrows hi)
    obtain ⟨row, rfl, hq⟩ := Prog.Always.result ht hr
    exact hq
  | effect t t' now st st' tk hl hr ht =>
    refine ⟨fun h => (by cases h), fun hi => ⟨?_, (hrows hi).2⟩⟩
    have hbody := hat hl (hrows hi)
    exact Prog.Always.step hbody ht
  | markFinished r hl =>
    refine ⟨fun h => (by cases h), fun hi => ⟨?_, (hrows hi).2⟩⟩
    have hq := hat hl (hrows hi)
    exact hq
  | setHere r hl =>
    exact ⟨fun h => (by cases h), fun hi => ⟨trivial, hset (hat hl (hrows hi)) (hrows hi).2⟩⟩
  | setThere r hl =>
    exact ⟨fun h => (by cases h), fun hi => ⟨trivial, hset (hat hl (hrows hi)) (hrows hi).2⟩⟩
  | release hl => exact ⟨fun h => (by cases h), fun hi => ⟨trivial, (hrows hi).2⟩⟩

end Life

/-- **What every end of the body of an item satisfies, its rows do.** -/
theorem Lane.Born.rows {s : Lane σ} (h : s.Born) {i : Nat} {it : Item σ}
    (hi : s.admitted[i]? = some it) (hc : ∀ now, Q (Token.cancelRow s.actorId now))
    (ht : it.task.Always (fun r => ∃ row, r = .ok row ∧ Q row)) : ∀ r ∈ s.prom i, Q r := by
  obtain ⟨mode, maxInflight, st, hr⟩ := h
  have hholds : (Lane.view i s).Holds Q :=
    Lane.view_inv (P := Life.Holds Q) ⟨fun _ => ⟨rfl, rfl⟩, fun _ => ⟨trivial, by simp⟩⟩
      (fun _ _ hl hs => hl.step hc hs) hr i
  refine (hholds.2 ?_).2
  intro it' hit
  rw [show (Lane.view i s).item = some it from hi] at hit
  cases hit
  exact ht

end

/-! ## the results -/

namespace Facade
namespace Runtime
variable {cfg : RuntimeConfig} {rt : Runtime} {f : RuntimeFuture}

/-- the call that the future stands for -/
def Performs (rt : Runtime) (f : RuntimeFuture) (boom : Bool) (ty : OpType) : Prop :=
  ∃ l it, rt.laneAt f.place = some l ∧ l.admitted[f.id]? = some it ∧ Calls l.actorId it boom ty

/-- a result of a call: cancelled, a value of the declared type, or the failure of `boom` -/
def ResultOf (boom : Bool) (ty : OpType) (o : OperationResult) : Prop :=
  (o.status = .cancelled ∧ o.error = none ∧ o.value = .error (.operationCancelled
    ("operation was cancelled; no value is available " ++ s!"(status={pyRepr (statusText .cancelled)})"))) ∨
  (boom = false ∧ o.status = .completed ∧ o.error = none ∧
    ∃ v : OpValue, o.value = .ok (some v) ∧ v.type = ty) ∨
  (boom = true ∧ o.status = .failed ∧ o.error = some boomText ∧ o.value = .error (.operationFailed
    ("operation did not complete; no value is available "
      ++ s!"(status={pyRepr (statusText .failed)}, error={pyRepr boomText})")))

theorem RowOf.result {boom : Bool} {ty : OpType} {actorId : String} {r : RuntimeResult}
    (h : RowOf boom ty actorId r) (f : RuntimeFuture) (recvNs : Int) :
    ResultOf boom ty (f.operationResult r recvNs) := by
  obtain ⟨_, ⟨hst, _, herr⟩ | ⟨hb, hst, hhas, herr, hty⟩ | ⟨hb, hst, _, herr⟩⟩ := h
  · refine Or.inl ⟨hst, ?_, OperationResult.value_cancelled hst⟩
    show RuntimeFuture.errorField r.error = none
    rw [herr]
    rfl
  · refine Or.inr (Or.inl ⟨hb, hst, ?_, r.value, ?_, hty⟩)
    · show RuntimeFuture.errorField r.error = none
      rw [herr]
      rfl
    · rw [OperationResult.value_completed hst hhas]
      show Except.ok (if r.hasValue then some r.value else none) = _
      rw [if_pos hhas]
  · have herror : (f.operationResult r recvNs).error = some boomText := by
      show RuntimeFuture.errorField r.error = _
      rw [herr, RuntimeFuture.errorField, if_neg (by decide)]
    exact Or.inr (Or.inr ⟨hb, hst, herror, OperationResult.value_failed hst herror (by decide)⟩)

/-- **A validated call does not fail.**  Every future stands for a validated call, and the result that
it gives is a value of the type that the call declares, or the call was cancelled and `value` raises
`OperationCancelledError`; only `boom` fails, with its own message. -/
theorem results_typed (h : Reach step (create cfg) rt) (hf : f ∈ rt.futures) :
    ∃ boom ty, Performs rt f boom ty ∧ ∀ o ∈ f.got, ResultOf boom ty o := by
  have hs := sound_reach h
  obtain ⟨l, it, hl, hi, hreg⟩ := hs.stands f hf
  obtain ⟨boom, ty, hcalls⟩ := hreg.calls
  refine ⟨boom, ty, ⟨l, it, hl, hi, hcalls⟩, ?_⟩
  intro o ho
  obtain ⟨_, _, r, hp, _, recvNs, rfl⟩ := (hs.once.fair f hf).taken ho
  have hprom : l.prom f.id = [r] := by
    have hp' : rt.promise f.key = [r] := hp
    unfold promise at hp'
    rw [show rt.laneAt f.key.1 = some l from hl] at hp'
    exact hp'
  have hrow := (hs.born f.place l hl).rows hi (cancelRow_of boom ty l.actorId) hcalls.ends r
    (by rw [hprom]; exact List.mem_singleton_self r)
  exact RowOf.result hrow f recvNs

/-- the steps that serve item `i` of the serial operation lane, a body of `n` effects -/
def serves (i n : Nat) : List Move :=
  [.lane (.op 0) .pop, .lane (.op 0) .beginService, .lane (.op 0) .dispatch] ++
    List.replicate (n + 1) (.lane (.op 0) (.serve i 0)) ++
    [.lane (.op 0) (.markFinished i), .lane (.op 0) (.setValue i), .lane (.op 0) .clearTok,
      .lane (.op 0) .clearActive]

/-- `boom` and `square(4)`, both read -/
def boomMoves : List Move :=
  [.submitOperation (.str "boom") [] 0, .submitOperation (.str "square") [.int 4] 0] ++
    serves 0 2 ++ serves 1 2 ++ [.result 1 7, .result 0 9]

theorem boomMoves_return : ∃ rt f g o p, run step (create serialConfig) boomMoves = some rt ∧
    rt.futures[0]? = some f ∧ rt.futures[1]? = some g ∧ f.got = [o] ∧ g.got = [p] ∧
    o.status = .failed ∧ p.status = .completed :=
  ⟨_, _, _, _, _, rfl, rfl, rfl, rfl, rfl, rfl, rfl⟩

/-- the failure of `boom`, and the value of `square` -/
theorem results_typed_boom : ∃ rt f g o p, Reach step (create serialConfig) rt ∧
    rt.futures[0]? = some f ∧ rt.futures[1]? = some g ∧ f.got = [o] ∧ g.got = [p] ∧
    o.error = some boomText ∧ ∃ v, p.value = .ok (some v) := by
  obtain ⟨rt, f, g, o, p, hrun, hf, hg, ho, hp, hos, hps⟩ := boomMoves_return
  have h : Reach step (create serialConfig) rt := ⟨boomMoves, hrun⟩
  obtain ⟨_, _, _, hres⟩ := results_typed h (List.mem_of_getElem? hf)
  obtain ⟨_, _, _, hres'⟩ := results_typed h (List.mem_of_getElem? hg)
  refine ⟨rt, f, g, o, p, h, hf, hg, ho, hp, ?_, ?_⟩
  · rcases hres o (by rw [ho]; exact List.mem_singleton_self o) with ⟨hst, _⟩ | ⟨_, hst, _⟩ |
      ⟨_, _, herr, _⟩
    · rw [hos] at hst
      cases hst
    · rw [hos] at hst
      cases hst
    · exact herr
  · rcases hres' p (by rw [hp]; exact List.mem_singleton_self p) with ⟨hst, _⟩ | ⟨_, _, _, v, hv, _⟩ |
      ⟨_, hst, _⟩
    · rw [hps] at hst
      cases hst
    · exact ⟨v, hv⟩
    · rw [hps] at hst
      cases hst

end Runtime
end Facade

end RayX
