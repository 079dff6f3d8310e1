import RayX.Lane.Drain

/-!
# What `cancel_pending` reaches

`cancel_pending` collects the queued tokens, the active token and the in-flight tokens in one
critical section and cancels them one by one afterwards.

* `Life.Settled`    a cancel has no effect any more: the body is past its last boundary or stops;
                    no step undoes it (`Settled.step`);
* `covered`         an unsettled item without a row is collected, or the consumer of an
                    `AsyncNonBlocking` lane holds it unlisted;
* `Window`          the consumer holds such an item and it could still be cancelled;
* `cancel_pending_reaches_iff`   **a call settles every outstanding operation exactly when it does
                    not collect in the window**;
* `cancel_pending_misses`   a `park_ms` that is popped and not yet registered when the tokens are
                    collected.
-/

namespace RayX
open Sys

/-! ## settled tokens -/

namespace Token

/-- past the last boundary, or asked to stop -/
def Settled (t : Token) : Prop := t.pastBoundary = true ∨ t.isCancelled = true

variable {t : Token}

theorem settled_cancel (t : Token) : t.cancel.1.Settled := t.cancel_reaches

theorem Settled.stopAtBoundary (h : t.Settled) (fin : Bool) : (t.stopAtBoundary fin).1.Settled := by
  rcases t with ⟨p, c⟩
  cases p <;> cases c <;> cases fin <;>
    simp_all [Settled, pastBoundary, isCancelled, Token.stopAtBoundary]

theorem Settled.markFinished (h : t.Settled) : t.markFinished.Settled := by
  rcases t with ⟨p, c⟩
  cases p <;> cases c <;> simp_all [Settled, pastBoundary, isCancelled, Token.markFinished]

theorem not_settled_queued (h : t.phase = .queued) : ¬ t.Settled := by
  unfold Settled pastBoundary isCancelled
  rw [h]
  simp

theorem settled_cancelled (h : t.phase = .cancelled) : t.Settled := by
  refine Or.inr ?_
  rw [isCancelled, h]
  rfl

end Token

section
variable {σ : Type}

namespace Life
variable {l l' : Life σ} {actorId : String}

/-- **No step of the life of an item unsettles its token.** -/
theorem Once.settled (ho : l.Once) (h : l.tok.Settled) (hs : Step actorId l l') :
    l'.tok.Settled := by
  cases hs with
  | cancel hl => exact Token.settled_cancel l.tok
  | begins it hi hl hb =>
    rcases ho.waiting (by rw [hl]; rfl) with hq | hc
    · exact absurd h (Token.not_settled_queued hq.1)
    · rw [Token.beginService_cancelled _ hc.1] at hb
      cases hb
  | effect t t' now st st' tk hl hr ht =>
    rcases Prog.step_poll ht with rfl | ⟨fin, rfl⟩
    · exact h
    · exact h.stopAtBoundary fin
  | markFinished r hl =>
    show (Lane.finished r l.tok).Settled
    unfold Lane.finished
    split
    · exact h
    · exact h.markFinished
  | _ => exact h

/-- a promise that is still owed belongs to a cancelled token -/
def Guarded (l : Life σ) : Prop := l.Once ∧ (0 < l.owed → l.tok.phase = .cancelled)

theorem Guarded.step (h : l.Guarded) (hs : Step actorId l l') : l'.Guarded := by
  obtain ⟨ho, hg⟩ := h
  refine ⟨ho.step hs, ?_⟩
  have hheld : l.loc.stage = .held → ¬ 0 < l.owed := by
    intro hl hpos
    rw [(ho.held hl).2.2] at hpos
    exact absurd hpos (Nat.lt_irrefl 0)
  cases hs with
  | cancel hl =>
    intro hpos
    by_cases hq : l.tok.phase = .queued
    · show l.tok.cancel.1.phase = .cancelled
      rw [Token.cancel_queued hq]
    · have howes : owes l.tok.cancel.2 = 0 := by
        rw [owes, if_neg (Token.cancel_phase hq).2]
      have hpos' : 0 < l.owed + owes l.tok.cancel.2 := hpos
      rw [howes] at hpos'
      show l.tok.cancel.1.phase = .cancelled
      rw [Token.cancel_settled (Or.inr (by rw [Token.isCancelled, hg hpos']; rfl))]
      exact hg hpos'
  | cancelFulfil now hpos => exact fun _ => hg hpos
  | begins it hi hl hb =>
    intro hpos
    rw [Token.beginService_cancelled _ (hg hpos)] at hb
    cases hb
  | effect t t' now st st' tk hl hr ht => exact fun hpos => absurd hpos (hheld (by rw [hl]; rfl))
  | markFinished r hl => exact fun hpos => absurd hpos (hheld (by rw [hl]; rfl))
  | _ => exact hg

end Life

/-! ## what is collected -/

/-- an item that the consumer has popped and that `inflight_toks_` does not list -/
def Consumer.unlisted : Consumer σ → Option (Item σ)
  | .popped it => some it
  | .began it => some it
  | .serving it => some it
  | _ => none

theorem Consumer.unlisted_item {c : Consumer σ} {it : Item σ} (h : c.unlisted = some it) :
    c.item? = some it ∧ ∀ i, c.registers i = false := by
  cases c with
  | popped it' => exact ⟨h, fun _ => rfl⟩
  | began it' => exact ⟨h, fun _ => rfl⟩
  | serving it' => exact ⟨h, fun _ => rfl⟩
  | _ => cases h

/-- a held item is unlisted, or registered -/
theorem Consumer.item_cases {c : Consumer σ} {it : Item σ} (h : c.item? = some it) :
    c.unlisted = some it ∨ c.registers it.id = true := by
  cases c with
  | registered it' =>
    cases h
    exact Or.inr (beq_self_eq_true _)
  | popped it' => exact Or.inl h
  | began it' => exact Or.inl h
  | serving it' => exact Or.inl h
  | _ => cases h

theorem Consumer.serves_item {c : Consumer σ} {i : Nat} (h : c.serves i = true) :
    ∃ it, c.item? = some it ∧ it.id = i := by
  cases c with
  | serving it => exact ⟨it, rfl, beq_iff_eq.mp h⟩
  | _ => cases h

theorem Consumer.place_item {c : Consumer σ} {i : Nat} (h : c.place i ≠ .retired) :
    ∃ it, c.item? = some it ∧ it.id = i := by
  cases c with
  | popped it =>
    by_cases he : it.id = i
    · exact ⟨it, rfl, he⟩
    · exact absurd (if_neg he) h
  | began it =>
    by_cases he : it.id = i
    · exact ⟨it, rfl, he⟩
    · exact absurd (if_neg he) h
  | registered it =>
    by_cases he : it.id = i
    · exact ⟨it, rfl, he⟩
    · exact absurd (if_neg he) h
  | _ => exact absurd rfl h

/-- the tokens that the call has still to cancel -/
def Pending.todo : Pending → List Nat
  | .idle => []
  | .cancelling todo => todo
  | .fulfilling _ todo => todo

namespace Lane
variable {s s' : Lane σ} {actorId : String} {mode : LaneMode} {maxInflight : Int} {st : σ} {i : Nat}

theorem guarded_reach (h : Reach Lane.step (create actorId mode maxInflight st) s) (i : Nat) :
    (view i s).Guarded := by
  refine view_inv ⟨⟨⟨rfl, rfl⟩, rfl⟩, ?_⟩ (fun _ _ hl hs => hl.step hs) h i
  exact fun hpos => absurd hpos (Nat.lt_irrefl 0)

/-- `active_tok_` is used in `SerialBlocking` only -/
theorem activeTok_reach (h : Reach Lane.step (create actorId mode maxInflight st) s) :
    s.mode = .asyncNonBlocking → s.activeTok = none := by
  refine h.inv (P := fun s => s.mode = .asyncNonBlocking → s.activeTok = none) ?_ (fun _ => rfl)
  intro s a s' hs ha
  cases step_sound ha with
  | pop hc hq hp =>
    intro hm
    have hm' : s.mode = .asyncNonBlocking := hm
    have hne : s.mode ≠ .serialBlocking := by
      rw [hm']
      exact LaneMode.noConfusion
    exact (if_neg hne).trans (hs hm')
  | clearTok hc => exact fun _ => rfl
  | _ => exact hs

/-- the consumer's item is listed, but for the unlisted one of an `AsyncNonBlocking` lane -/
theorem Wf.held_listed (h : Wf s) {it : Item σ} (hit : s.consumer.item? = some it) :
    it.id ∈ s.pendingToks ∨ (s.mode = .asyncNonBlocking ∧ s.consumer.unlisted = some it) := by
  rcases Consumer.item_cases hit with hu | hr
  · cases hm : s.mode with
    | serialBlocking =>
      have ha := h.active hm it hit
      refine Or.inl (List.mem_append_left _ (List.mem_append_right _ ?_))
      rw [ha]
      exact List.mem_singleton_self it.id
    | asyncNonBlocking => exact Or.inr ⟨rfl, hu⟩
  · exact Or.inl (List.mem_append_right _ ((h.toks it.id).mpr (Or.inl hr)))

/-- **An unsettled item without a row is collected or held unlisted.** -/
theorem covered (h : Reach Lane.step (create actorId mode maxInflight st) s) {it : Item σ}
    (hi : s.admitted[i]? = some it) (hp : s.prom i = []) (hns : ¬ (s.tok i).Settled) :
    i ∈ s.pendingToks ∨ (s.mode = .asyncNonBlocking ∧ s.consumer.unlisted = some it) := by
  have hw := wf_reach h
  obtain ⟨ho, hg⟩ := guarded_reach h i
  have hlen : i < s.admitted.length := (List.getElem?_eq_some_iff.mp hi).1
  have hheld : ∀ it', s.consumer.item? = some it' → it'.id = i →
      i ∈ s.pendingToks ∨ (s.mode = .asyncNonBlocking ∧ s.consumer.unlisted = some it) := by
    intro it' hit' hid
    have hsame := (hw.held it' hit').1
    rw [hid, hi] at hsame
    cases hsame
    rw [← hid]
    exact hw.held_listed hit'
  by_cases hq : s.admitted.length ≤ i + s.queue.length
  · -- still queued
    have hmem := hw.queued_iff.mpr ⟨hlen, hq⟩
    exact Or.inl (List.mem_append_left _ (List.mem_append_left _ hmem))
  have hidle := Nat.not_le.mp hq
  cases hv : s.svc i with
  | some v =>
    cases hc : s.consumer.serves i with
    | true =>
      obtain ⟨it', hit', hid⟩ := Consumer.serves_item hc
      exact hheld it' hit' hid
    | false =>
      have hfly : s.flies i := Or.inr ⟨by rw [hv]; exact Option.some_ne_none v, hc⟩
      exact Or.inl (List.mem_append_right _ ((hw.toks i).mpr hfly))
  | none =>
    by_cases hpl : s.consumer.place i = .retired
    · -- a retired item without a row: its queued cancel owes the row
      have hloc : (view i s).loc = .retired := (loc_idle hidle hv).trans hpl
      have hpaid := (ho.done (by rw [hloc]; rfl)).2
      have howed : 0 < (view i s).owed := by
        have hsum : (s.prom i).length + s.owed i = 1 := hpaid
        rw [hp, List.length_nil, Nat.zero_add] at hsum
        show 0 < s.owed i
        omega
      exact absurd (Token.settled_cancelled (hg howed)) hns
    · obtain ⟨it', hit', hid⟩ := Consumer.place_item hpl
      exact hheld it' hit' hid

/-- the unlisted item of an `AsyncNonBlocking` lane is not collected -/
theorem unlisted_missed (h : Reach Lane.step (create actorId mode maxInflight st) s)
    (hm : s.mode = .asyncNonBlocking) {it : Item σ} (hu : s.consumer.unlisted = some it) :
    it.id ∉ s.pendingToks := by
  have hw := wf_reach h
  obtain ⟨hit, hnr⟩ := Consumer.unlisted_item hu
  intro hmem
  unfold pendingToks at hmem
  rw [activeTok_reach h hm, Option.toList_none, List.append_nil, List.mem_append] at hmem
  rcases hmem with hq | hf
  · have hlast := (hw.queued_iff.mp hq).2
    have hpop := (hw.held it hit).2
    omega
  · rcases (hw.toks it.id).mp hf with hr | ⟨hv, hns⟩
    · rw [hnr it.id] at hr
      cases hr
    · exact hv (hw.notHere it hit hns)

/-- an unlisted item has no row unless its token is settled -/
theorem unlisted_unset (h : Reach Lane.step (create actorId mode maxInflight st) s) {it : Item σ}
    (hu : s.consumer.unlisted = some it) (hns : ¬ (s.tok it.id).Settled) : s.prom it.id = [] := by
  have hw := wf_reach h
  have ho := once_reach h it.id
  obtain ⟨hit, _⟩ := Consumer.unlisted_item hu
  have hpop := (hw.held it hit).2
  have hb : it.id + s.queue.length < s.admitted.length := by omega
  have hwait : (view it.id s).loc.stage = .waiting → s.prom it.id = [] := by
    intro hst
    rcases ho.waiting hst with hq | hc
    · exact hq.2.1
    · exact absurd (Token.settled_cancelled hc.1) hns
  have hheld : (view it.id s).loc.stage = .held → s.prom it.id = [] :=
    fun hst => (ho.held hst).2.1
  cases hv : s.svc it.id with
  | some v =>
    have hc : s.consumer.serves it.id = true := by
      by_contra hc
      rw [hw.notHere it hit (Bool.eq_false_iff.mpr hc)] at hv
      cases hv
    have hne := (hw.here it.id hc).2
    apply hheld
    rw [show (view it.id s).loc = .service v from loc_busy hb hv]
    cases v with
    | fulfilled => exact absurd hv hne
    | _ => rfl
  | none =>
    have hloc : (view it.id s).loc = s.consumer.place it.id := loc_idle hb hv
    cases hc : s.consumer with
    | popped it' =>
      rw [hc] at hu hloc
      cases hu
      exact hwait (by rw [hloc, (place_self it).1]; rfl)
    | began it' =>
      rw [hc] at hu hloc
      cases hu
      exact hheld (by rw [hloc, (place_self it).2.1]; rfl)
    | serving it' =>
      rw [hc] at hu
      cases hu
      exact absurd hv (hw.here it.id (by rw [hc]; exact beq_self_eq_true _)).1
    | _ =>
      rw [hc] at hu
      cases hu

/-! ## the call -/

/-- every collected token is settled or still to cancel -/
def Sweeps (toks : List Nat) (s : Lane σ) : Prop :=
  ∀ i ∈ toks, i ∈ s.pending.todo ∨ (s.tok i).Settled

/-- only the call itself moves its list -/
theorem step_todo {a : Act σ} (hs : Step s a s') (ha : a ≠ .collect) (hi : i ∈ s.pending.todo) :
    i ∈ s'.pending.todo ∨ (s'.tok i).Settled := by
  cases hs with
  | collect hp => exact absurd rfl ha
  | @cpCancel j todo hp =>
    rw [hp] at hi
    rcases List.mem_cons.mp hi with rfl | hi
    · refine Or.inr ?_
      show (Function.update s.tok i (s.tok i).cancel.1 i).Settled
      rw [Function.update_self]
      exact Token.settled_cancel (s.tok i)
    · refine Or.inl ?_
      show i ∈ (if (s.tok j).cancel.2 = .fulfil then Pending.fulfilling j todo
        else Pending.cancelling todo).todo
      split <;> exact hi
  | cpFulfil hp =>
    rw [hp] at hi
    exact Or.inl hi
  | cpReturn hp =>
    rw [hp] at hi
    cases hi
  | _ => exact Or.inl hi

/-- no step of the lane unsettles a token -/
theorem settled_step (hw : Wf s) (ho : (view i s).Once) {a : Act σ} (hs : Step s a s')
    (h : (s.tok i).Settled) : (s'.tok i).Settled := by
  rcases view_step (i := i) hw hs with he | he
  · have ht : s'.tok i = s.tok i := congrArg Life.tok he
    rw [ht]
    exact h
  · exact ho.settled h he

/-- **What is collected is settled when the call returns.** -/
theorem sweep_run (h : Reach Lane.step (create actorId mode maxInflight st) s) {toks : List Nat}
    (h0 : Sweeps toks s) {acts : List (Act σ)} (hacts : .collect ∉ acts)
    (hrun : run Lane.step s acts = some s') : Sweeps toks s' := by
  have hC := stepsMeet_labels Lane.step (fun a => a ≠ Act.collect) s
    (fun a ha he => hacts (he ▸ ha))
  refine (run_inv_of (P := fun s => Reach Lane.step (create actorId mode maxInflight st) s ∧
    Sweeps toks s) ?_ hrun hC ⟨h, h0⟩).2
  intro s a s' hs ha hstep
  refine ⟨hs.1.trans (.one a hstep), ?_⟩
  intro i hi
  rcases hs.2 i hi with htodo | hset
  · exact step_todo (step_sound hstep) ha htodo
  · exact Or.inr (settled_step (wf_reach hs.1) (once_reach hs.1 i) (step_sound hstep) hset)

theorem settled_run (h : Reach Lane.step (create actorId mode maxInflight st) s)
    (hset : (s.tok i).Settled) {acts : List (Act σ)} (hacts : .collect ∉ acts)
    (hrun : run Lane.step s acts = some s') (hidle : s'.pending = .idle) : (s'.tok i).Settled := by
  have hsw : Sweeps [i] s := by
    intro j hj
    rw [List.mem_singleton.mp hj]
    exact Or.inr hset
  rcases sweep_run h hsw hacts hrun i (List.mem_singleton_self i) with hi | hi
  · rw [hidle] at hi
    cases hi
  · exact hi

/-- the call can run to its end with no other thread moving, and touches its tokens only -/
theorem sweep_alone (todo : List Nat) (s : Lane σ) (hp : s.pending = .cancelling todo) :
    ∃ acts s', Act.collect ∉ acts ∧ run Lane.step s acts = some s' ∧ s'.pending = .idle ∧
      ∀ i, i ∉ todo → s'.tok i = s.tok i := by
  induction todo generalizing s with
  | nil =>
    refine ⟨[.cpReturn], { s with pending := .idle }, by simp, ?_, rfl, fun _ _ => rfl⟩
    rw [run_cons]
    refine ⟨{ s with pending := .idle }, ?_, rfl⟩
    simp only [step, hp]
  | cons j todo ih =>
    have hrest : ∀ m : Lane σ, m.pending = .cancelling todo → (∀ i, i ≠ j → m.tok i = s.tok i) →
        ∀ pre, Act.collect ∉ pre → run Lane.step s pre = some m →
        ∃ acts s', Act.collect ∉ acts ∧ run Lane.step s acts = some s' ∧ s'.pending = .idle ∧
          ∀ i, i ∉ j :: todo → s'.tok i = s.tok i := by
      intro m hm htok pre hpre hrun
      obtain ⟨acts, s', hacts, hrun', hidle, hsame⟩ := ih m hm
      refine ⟨pre ++ acts, s', ?_, run_append.mpr ⟨m, hrun, hrun'⟩, hidle, ?_⟩
      · rw [List.mem_append]
        exact fun hmem => hmem.elim hpre hacts
      · intro i hi
        rw [hsame i (fun hmem => hi (List.mem_cons_of_mem j hmem))]
        exact htok i (fun he => hi (he ▸ List.mem_cons_self))
    have htok : ∀ i, i ≠ j → (s.cancelTok j).tok i = s.tok i :=
      fun i hne => Function.update_of_ne hne _ _
    by_cases ha : (s.tok j).cancel.2 = .fulfil
    · -- a queued cancel sets its promise before the next token
      let m : Lane σ := { s.cancelTok j with pending := .fulfilling j todo }
      let m' : Lane σ := { m.fulfil j (Token.cancelRow s.actorId 0) with
        pending := .cancelling todo }
      refine hrest m' rfl htok [.cpCancel, .cpFulfil 0] (by simp) ?_
      rw [run_cons]
      refine ⟨m, ?_, ?_⟩
      · simp only [step, hp, ha, if_true]
        rfl
      · rfl
    · let m : Lane σ := { s.cancelTok j with pending := .cancelling todo }
      refine hrest m rfl htok [.cpCancel] (by simp) ?_
      rw [run_cons]
      refine ⟨m, ?_, rfl⟩
      simp only [step, hp, if_neg ha]
      rfl

/-- the consumer of an `AsyncNonBlocking` lane holds an unlisted item that could be cancelled at a
boundary -/
def Window (s : Lane σ) : Prop :=
  s.mode = .asyncNonBlocking ∧ ∃ it, s.consumer.unlisted = some it ∧ 1 < it.checkpointCount ∧
    (s.tok it.id).pastBoundary = false ∧ (s.tok it.id).isCancelled = false

/-- the call that collects from `s` into `s₁` cancels every outstanding operation: whatever the
other threads do until it returns, an item admitted before it, without a row when it collects and
with more than one checkpoint, is past its last boundary or cancelled -/
def ReachesAll (s s₁ : Lane σ) : Prop :=
  ∀ acts s₂, Act.collect ∉ acts → run Lane.step s₁ acts = some s₂ → s₂.pending = .idle →
    ∀ i it, s.admitted[i]? = some it → s.prom i = [] → 1 < it.checkpointCount →
      (s₂.tok i).pastBoundary = false → (s₂.tok i).isCancelled = true

/-- **A `cancel_pending` reaches every outstanding operation exactly when it does not collect in
the window.** -/
theorem cancel_pending_reaches_iff {s₁ : Lane σ}
    (h : Reach Lane.step (create actorId mode maxInflight st) s)
    (hc : Lane.step s .collect = some s₁) : ReachesAll s s₁ ↔ ¬ Window s := by
  have h₁ : Reach Lane.step (create actorId mode maxInflight st) s₁ := h.trans (.one .collect hc)
  obtain ⟨htok, hpend⟩ : s₁.tok = s.tok ∧ s₁.pending = .cancelling s.pendingToks := by
    cases step_sound hc with
    | collect hp => exact ⟨rfl, rfl⟩
  constructor
  · intro hall hwin
    obtain ⟨hm, it, hu, hcc, hpast, hcanc⟩ := hwin
    obtain ⟨acts, s₂, hacts, hrun, hidle, hsame⟩ := sweep_alone _ s₁ hpend
    have hns : ¬ (s.tok it.id).Settled := by
      unfold Token.Settled
      rw [hpast, hcanc]
      simp
    have hit := ((wf_reach h).held it (Consumer.unlisted_item hu).1).1
    have hkeep : s₂.tok it.id = s.tok it.id := by
      rw [hsame it.id (unlisted_missed h hm hu), htok]
    have hend := hall acts s₂ hacts hrun hidle it.id it hit (unlisted_unset h hu hns) hcc
      (by rw [hkeep]; exact hpast)
    rw [hkeep, hcanc] at hend
    cases hend
  · intro hwin acts s₂ hacts hrun hidle i it hi hp hcc hpast
    have hset : (s₂.tok i).Settled := by
      by_cases hs : (s.tok i).Settled
      · exact settled_run h₁ (by rw [htok]; exact hs) hacts hrun hidle
      · rcases covered h hi hp hs with hmem | ⟨hm, hu⟩
        · have hsw : Sweeps s.pendingToks s₁ := by
            intro j hj
            rw [hpend]
            exact Or.inl hj
          rcases sweep_run h₁ hsw hacts hrun i hmem with htodo | hset
          · rw [hidle] at htodo
            cases htodo
          · exact hset
        · have hid : it.id = i := (wf_reach h).ids i it hi
          unfold Token.Settled at hs
          rw [not_or, Bool.not_eq_true, Bool.not_eq_true, ← hid] at hs
          exact absurd ⟨hm, it, hu, hcc, hs.1, hs.2⟩ hwin
    rcases hset with hset | hset
    · rw [hpast] at hset
      cases hset
    · exact hset

end Lane

end

namespace Lane

/-- a `park_ms(200)` on an `AsyncNonBlocking` lane, popped and not registered yet -/
def poppedRun : List (Act Unit) :=
  [.submit (makeOpTask parkMs [.int64 200] "rt-hpx-0") (parkMsCheckpoints 200) .async, .pop]

def poppedLane : Lane Unit := create "rt-hpx-0" .asyncNonBlocking 2 ()

/-- the call finds nothing to collect and returns; the operation is armed and untouched -/
theorem poppedRun_returns : ∃ s s₁ s₂ it, run Lane.step poppedLane poppedRun = some s ∧
    Lane.step s .collect = some s₁ ∧ run Lane.step s₁ [.cpReturn] = some s₂ ∧
    s₂.pending = .idle ∧ s.admitted[0]? = some it ∧ s.prom 0 = [] ∧ 1 < it.checkpointCount ∧
    (s₂.tok 0).pastBoundary = false ∧ (s₂.tok 0).isCancelled = false :=
  ⟨_, _, _, _, rfl, rfl, rfl, rfl, rfl, rfl, by decide, rfl, rfl⟩

/-- a call in the window misses the operation -/
theorem cancel_pending_misses : ¬ ∀ s s₁ : Lane Unit, Reach Lane.step poppedLane s →
    Lane.step s .collect = some s₁ → ReachesAll s s₁ := by
  intro hall
  obtain ⟨s, s₁, s₂, it, hrun, hc, hret, hidle, hi, hp, hcc, hpast, hcanc⟩ := poppedRun_returns
  have hend := hall s s₁ ⟨poppedRun, hrun⟩ hc [.cpReturn] s₂ (by simp) hret hidle 0 it hi hp hcc
    hpast
  rw [hcanc] at hend
  cases hend

/-- outside the window: the same operation still queued when the call collects -/
theorem cancel_pending_reaches_queued : ∃ s s₁ : Lane Unit,
    run Lane.step poppedLane (poppedRun.take 1) = some s ∧ Lane.step s .collect = some s₁ ∧
    ReachesAll s s₁ := by
  obtain ⟨s, s₁, hrun, hc, hu⟩ : ∃ s s₁ : Lane Unit,
      run Lane.step poppedLane (poppedRun.take 1) = some s ∧ Lane.step s .collect = some s₁ ∧
      s.consumer.unlisted = none := ⟨_, _, rfl, rfl, rfl⟩
  refine ⟨s, s₁, hrun, hc, (cancel_pending_reaches_iff ⟨poppedRun.take 1, hrun⟩ hc).mpr ?_⟩
  intro hwin
  obtain ⟨_, it, hit, _⟩ := hwin
  rw [hu] at hit
  cases hit

end Lane

end RayX
