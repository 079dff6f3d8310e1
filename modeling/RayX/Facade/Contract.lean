import RayX.Facade.Inv

/-!
# What Python sees of a future

* `Life.tells`       a token says cancelled exactly when a `cancel()` on it has returned `True`;
* `Step.future`      a move leaves a future on its promise, and a future that is read as it is;
* `futures_once`     **a future is read at most once, and what it gave is the one row of its own
                     promise**;
* `cancel_seen`      **`cancel()`, `cancelled()` and the result agree, in every later state too**.
-/

namespace RayX
open Sys

/-! ## one item -/

namespace Life
variable {σ : Type} {l : Life σ}

theorem tells_of (h : (l.tok.isCancelled = true ∧ l.wins = 1) ∨
    (l.tok.isCancelled = false ∧ l.wins = 0)) : l.tok.isCancelled = true ↔ true ∈ l.answers := by
  have hwins : true ∈ l.answers ↔ 0 < l.wins := List.count_pos_iff.symm
  rw [hwins]
  rcases h with ⟨ht, hw⟩ | ⟨ht, hw⟩
  · rw [hw]
    exact ⟨fun _ => Nat.zero_lt_one, fun _ => ht⟩
  · rw [hw, ht]
    exact ⟨fun h => absurd h Bool.false_ne_true, fun h => absurd h (Nat.lt_irrefl 0)⟩

theorem Stopped.reports (h : l.Stopped) : l.tok.isCancelled = true ∧ l.wins = 1 := by
  refine ⟨?_, h.2.1⟩
  rw [Token.isCancelled, h.1]
  rfl

theorem Stopping.reports {n : Nat} (h : l.Stopping n) : l.tok.isCancelled = true ∧ l.wins = 1 := by
  refine ⟨?_, h.2.2⟩
  rw [Token.isCancelled, h.1]
  rfl

theorem Running.reports {n : Nat} (h : l.Running n) : l.tok.isCancelled = false ∧ l.wins = 0 := by
  refine ⟨?_, h.2.2⟩
  rw [Token.isCancelled, h.1]
  rfl

theorem reports_queued (h : l.tok.phase = .queued ∧ l.wins = 0) :
    l.tok.isCancelled = false ∧ l.wins = 0 := by
  refine ⟨?_, h.2⟩
  rw [Token.isCancelled, h.1]
  rfl

theorem reports_completed (h : l.tok.phase = .completed ∧ l.wins = 0) :
    l.tok.isCancelled = false ∧ l.wins = 0 := by
  refine ⟨?_, h.2⟩
  rw [Token.isCancelled, h.1]
  rfl

/-- wherever an admitted item is, its token says cancelled exactly when a cancel has won -/
theorem ContractAt.tells {loc : Loc σ} (h : l.ContractAt loc) (hl : loc ≠ .absent)
    (hi : ∃ it, l.item = some it) : l.tok.isCancelled = true ↔ true ∈ l.answers := by
  apply tells_of
  have hrun : ∀ n, l.Running n ∨ l.Stopping n → (l.tok.isCancelled = true ∧ l.wins = 1) ∨
      (l.tok.isCancelled = false ∧ l.wins = 0) :=
    fun n h => h.elim (fun h => Or.inr h.reports) (fun h => Or.inl h.reports)
  obtain ⟨it, hit⟩ := hi
  cases loc with
  | absent => exact absurd rfl hl
  | queued => exact h.elim (fun h => Or.inr (reports_queued h)) (fun h => Or.inl h.reports)
  | popped => exact h.elim (fun h => Or.inr (reports_queued h)) (fun h => Or.inl h.reports)
  | began => exact hrun _ (h it hit)
  | registered => exact hrun _ (h it hit)
  | service v =>
    cases v with
    | body t => exact h.elim (fun ⟨n, _, h⟩ => hrun n h) (fun h => Or.inl h.2.reports)
    | outcome r => exact h.elim (fun h => Or.inr h.1.reports) (fun h => Or.inl h.1.reports)
    | settled r =>
      exact h.elim (fun h => Or.inr (reports_completed h.1)) (fun h => Or.inl h.1.reports)
    | fulfilled =>
      exact h.elim (fun h => Or.inr (reports_completed h.1)) (fun h => Or.inl h.reports)
  | retired => exact h.elim (fun h => Or.inr (reports_completed h.1)) (fun h => Or.inl h.reports)

end Life

namespace Lane
variable {σ : Type} {s s' : Lane σ} {a : Act σ}

/-- the answers of the cancels only grow -/
theorem step_answers (hs : s.step a = some s') (i : Nat) : ∃ bs, s'.answers i = s.answers i ++ bs := by
  have hsame : ∃ bs, s.answers i = s.answers i ++ bs := ⟨[], (List.append_nil _).symm⟩
  have hset : ∀ j, ∃ bs, (s.cancelTok j).answers i = s.answers i ++ bs := by
    intro j
    by_cases hj : i = j
    · subst hj
      exact ⟨_, Function.update_self _ _ _⟩
    · exact ⟨[], (Function.update_of_ne hj _ _).trans (List.append_nil _).symm⟩
  cases step_sound hs with
  | cancel _ => exact hset _
  | cpCancel _ => exact hset _
  | _ => exact hsame

theorem Born.contract (h : s.Born) {i : Nat} {it : Item σ} (hi : s.admitted[i]? = some it)
    (hreg : Registered s.actorId it) : (view i s).Kept ∧ (view i s).Contract := by
  refine ⟨h.kept i, (h.kept i).2.2 ?_⟩
  intro it' hit
  rw [show (view i s).item = some it from hi] at hit
  cases hit
  exact hreg.honest

end Lane

/-! ## the moves and one future -/

namespace Facade
namespace Runtime
variable {cfg : RuntimeConfig} {rt rt' : Runtime} {m : Move} {i : Nat} {f : RuntimeFuture}

/-- what the calls of `cancel()` on a token have returned, those of the teardown included -/
def answers (rt : Runtime) (key : Place × Nat) : List Bool :=
  match rt.laneAt key.1 with
  | some l => l.answers key.2
  | none => []

/-- a future stays on its promise, and a future that is read stays as it is -/
def Continues (f f' : RuntimeFuture) : Prop :=
  f'.key = f.key ∧ f'.submitNs = f.submitNs ∧ (f.fut = false → f' = f)

theorem Step.future (h : Step rt m rt') (hf : rt.futures[i]? = some f) :
    ∃ f', rt'.futures[i]? = some f' ∧ Continues f f' := by
  have hself : Continues f f := ⟨rfl, rfl, fun _ => rfl⟩
  have hkeep : rt'.futures = rt.futures → ∃ f', rt'.futures[i]? = some f' ∧ Continues f f' := by
    intro he
    rw [he]
    exact ⟨f, hf, hself⟩
  have hgrow : ∀ g, rt'.futures = rt.futures ++ [g] →
      ∃ f', rt'.futures[i]? = some f' ∧ Continues f f' := by
    intro g he
    rw [he, List.getElem?_append_left (List.getElem?_eq_some_iff.mp hf).1]
    exact ⟨f, hf, hself⟩
  cases h with
  | admitsOp _ _ _ _ _ _ => exact hgrow _ rfl
  | admitsCall _ _ _ _ _ _ _ _ => exact hgrow _ rfl
  | @reads j g r rest recvNs hg hv hp =>
    by_cases hj : j = i
    · subst hj
      rw [hf] at hg
      cases hg
      refine ⟨f.retire (f.operationResult r recvNs),
        List.getElem?_set_self (List.getElem?_eq_some_iff.mp hf).1, rfl, rfl, ?_⟩
      intro hfalse
      rw [hv] at hfalse
      cases hfalse
    · exact ⟨f, (List.getElem?_set_ne hj).trans hf, hself⟩
  | cancels _ _ hl => exact hkeep (stepLane_futures hl :)
  | cancelReturns _ hl => exact hkeep (stepLane_futures hl :)
  | works _ hl => exact hkeep (stepLane_futures hl)
  | _ => exact hkeep rfl

theorem future_reach (h : Reach step rt rt') (hf : rt.futures[i]? = some f) :
    ∃ f', rt'.futures[i]? = some f' ∧ Continues f f' := by
  refine h.inv (P := fun s => ∃ f', s.futures[i]? = some f' ∧ Continues f f') ?_
    ⟨f, hf, rfl, rfl, fun _ => rfl⟩
  rintro s m s' ⟨g, hg, hk, hn, hread⟩ hs
  obtain ⟨g', hg', hk', hn', hread'⟩ := (step_sound hs).future hg
  refine ⟨g', hg', hk'.trans hk, hn'.trans hn, ?_⟩
  intro hfalse
  have he := hread hfalse
  subst he
  exact hread' hfalse

/-! ## what later states keep -/

theorem Sound.reach (h : Sound rt) (hr : Reach Runtime.step rt rt') : Sound rt' :=
  hr.inv (fun _ _ _ hi hs => hi.step (step_sound hs)) h

/-- a promise that is set stays as it is -/
theorem Sound.promise_reach (h : Sound rt) (hr : Reach Runtime.step rt rt') {key : Place × Nat}
    {r : RuntimeResult} (hp : rt.promise key = [r]) : rt'.promise key = [r] := by
  refine (hr.inv (P := fun s => Sound s ∧ s.promise key = [r]) ?_ ⟨h, hp⟩).2
  rintro s m s' ⟨hs, hp⟩ hm
  exact ⟨hs.step (step_sound hm), (step_sound hm).evolves.promise hs.born key r hp⟩

/-- an answer of `cancel()` is never taken back -/
theorem answers_reach (hr : Reach step rt rt') {key : Place × Nat} {b : Bool}
    (ha : b ∈ rt.answers key) : b ∈ rt'.answers key := by
  refine hr.inv (P := fun s => b ∈ s.answers key) ?_ ha
  intro s m s' ha hm
  unfold answers at ha ⊢
  rcases hl : s.laneAt key.1 with _ | l
  · rw [hl] at ha
    cases ha
  · rw [hl] at ha
    obtain ⟨l', hl', rfl | ⟨a, hs⟩⟩ := (step_sound hm).evolves key.1 l hl
    · rw [hl']
      exact ha
    · rw [hl']
      obtain ⟨bs, hbs⟩ := Lane.step_answers hs key.2
      show b ∈ l'.answers key.2
      rw [hbs]
      exact List.mem_append_left _ ha

/-! ## a run -/

/-- one lane for operations that do not block its consumer -/
def parkConfig : RuntimeConfig where
  numLanes := 1
  one_lane := Nat.zero_lt_one
  maxQd := 2
  nonblockingOpLanes := true
  maxInflightPerLane := 2
  ids := fun _ => "rt-hpx-0"

/-- `park_ms(20)` is cancelled in its first stride and read; then it is cancelled and read again -/
def parkMoves : List Move :=
  [.submitOperation (.str "park_ms") [.int 20] 0, .lane (.op 0) .pop, .lane (.op 0) .beginService,
    .lane (.op 0) .dispatch, .lane (.op 0) .launch, .lane (.op 0) (.serve 0 1), .cancel 0,
    .lane (.op 0) (.serve 0 2), .lane (.op 0) (.serve 0 2), .lane (.op 0) (.serve 0 3),
    .lane (.op 0) (.serve 0 4), .lane (.op 0) (.markFinished 0), .lane (.op 0) (.setValue 0),
    .result 0 9, .cancel 0, .result 0 11]

theorem parkMoves_returns : ∃ rt f o, run step (create parkConfig) parkMoves = some rt ∧
    rt.futures[0]? = some f ∧ f.got = [o] ∧ f.fut = false ∧
    rt.answers f.key = [true, false] ∧ rt.promise f.key ≠ [] :=
  ⟨_, _, _, rfl, rfl, rfl, rfl, rfl, List.cons_ne_nil _ _⟩

/-! ## the results -/

/-- **A future is read at most once**: no two futures have one promise, a future that was read has
given the one row of its promise, once, and in every later state it still holds that result, and
`result()` and `ready()` raise. -/
theorem futures_once (h : Reach step (create cfg) rt) :
    (∀ (i j : Nat) (f g : RuntimeFuture), rt.futures[i]? = some f → rt.futures[j]? = some g →
      f.key = g.key → i = j) ∧
    ∀ (i : Nat) (f : RuntimeFuture), rt.futures[i]? = some f →
      ((f.fut = true ∧ f.got = []) ∨ (f.fut = false ∧ f.retired = true ∧
        ∃ r recvNs, rt.promise f.key = [r] ∧ f.got = [f.operationResult r recvNs])) ∧
      ∀ rt', Reach step rt rt' → f.fut = false →
        rt'.futures[i]? = some f ∧ rt'.promise f.key = rt.promise f.key ∧
        (∀ recvNs, rt'.result i recvNs = some (runtimeError
          ("RuntimeFuture is invalid (already retired via result()); "
            ++ "cannot call result() again"), rt')) ∧
        f.ready (rt'.promise f.key) = runtimeError
          "RuntimeFuture is invalid (already retired via result()); cannot query ready()" := by
  have hs := sound_reach h
  refine ⟨?_, ?_⟩
  · intro i j f g hi hj hk
    have hnd := hs.once.distinct
    have hi' : (rt.futures.map RuntimeFuture.handles.key)[i]? = some f.key := by
      rw [List.getElem?_map, hi]
      rfl
    have hj' : (rt.futures.map RuntimeFuture.handles.key)[j]? = some f.key := by
      rw [List.getElem?_map, hj, hk]
      rfl
    exact (List.getElem?_inj (List.getElem?_eq_some_iff.mp hi').1 hnd).mp (hi'.trans hj'.symm)
  · intro i f hf
    have hfair := hs.once.fair f (List.mem_of_getElem? hf)
    refine ⟨?_, ?_⟩
    · rcases hfair with h | ⟨hv, r, o, hp, hg, hret, recvNs, rfl⟩
      · exact Or.inl h
      · exact Or.inr ⟨hv, hret, r, recvNs, hp, hg⟩
    · intro rt' hr hv
      obtain ⟨f', hf', _, _, hsame⟩ := future_reach hr hf
      rw [hsame hv] at hf'
      rcases hfair with ⟨hv', _⟩ | ⟨_, r, o, hp, _⟩
      · exact absurd (hv.symm.trans hv') Bool.noConfusion
      · refine ⟨hf', ?_, ?_, ?_⟩
        · exact (hs.promise_reach hr hp).trans hp.symm
        · intro recvNs
          unfold Runtime.result
          rw [hf', Option.bind_some, RuntimeFuture.result_retired hv, Option.map_some]
          have hself : rt'.futures.set i f = rt'.futures := by
            obtain ⟨hlt, rfl⟩ := List.getElem?_eq_some_iff.mp hf'
            exact List.set_getElem_self hlt
          show some (_, { rt' with futures := rt'.futures.set i f }) = _
          rw [hself]
        · rw [RuntimeFuture.ready, if_pos hv]

/-- a future that was read, and its second `result()` -/
theorem futures_once_park : ∃ rt f, Reach step (create parkConfig) rt ∧ rt.futures[0]? = some f ∧
    (∃ r recvNs, rt.promise f.key = [r] ∧ f.got = [f.operationResult r recvNs]) ∧
    rt.result 0 12 = some (runtimeError ("RuntimeFuture is invalid (already retired via result()); "
      ++ "cannot call result() again"), rt) := by
  obtain ⟨rt, f, o, hrun, hf, _, hv, _⟩ := parkMoves_returns
  have h : Reach step (create parkConfig) rt := ⟨parkMoves, hrun⟩
  obtain ⟨hread, hlater⟩ := (futures_once h).2 0 f hf
  have hraise := (hlater rt (Reach.refl rt) hv).2.2.1 12
  rcases hread with ⟨hv', _⟩ | ⟨_, _, hgot⟩
  · exact absurd (hv.symm.trans hv') Bool.noConfusion
  · exact ⟨rt, f, h, hf, hgot, hraise⟩

/-! ## cancels -/

/-- the answer of a `cancel()` is the next one on its token -/
theorem cancel_answer {b : Bool} (hf : rt.futures[i]? = some f)
    (h : rt.cancel i = some (b, rt')) :
    rt'.answers f.key = rt.answers f.key ++ [b] ∧ b = (rt.token f.key).cancel.2.returned := by
  obtain ⟨g, hg, h⟩ := Option.bind_eq_some_iff.mp h
  rw [hf] at hg
  cases hg
  obtain ⟨rt₁, hl, h⟩ := Option.map_eq_some_iff.mp h
  cases h
  refine ⟨?_, rfl⟩
  obtain ⟨l, l', hat, hs, rfl⟩ := stepLane_spec hl
  have hat' : (rt.setLane f.place l').laneAt f.key.1 = some l' := laneAt_setLane_self hat
  have hb : (rt.token f.key).cancel.2.returned = (l.tok f.id).cancel.2.returned := by
    unfold token
    rw [show rt.laneAt f.key.1 = some l from hat]
    rfl
  unfold answers
  rw [show rt.laneAt f.key.1 = some l from hat, hb]
  rw [show Runtime.laneAt { rt.setLane f.place l' with
    cancelling := if (rt.token f.key).cancel.2 = .fulfil then some f.key else none } f.key.1 =
      some l' from hat']
  cases Lane.step_sound hs with
  | cancel _ => exact Function.update_self _ _ _

/-- token, answers and promise of a future in a sound state -/
theorem Sound.tells (h : Sound rt) (hf : f ∈ rt.futures) :
    (rt.answers f.key).count true ≤ 1 ∧
    ((rt.token f.key).isCancelled = true ↔ true ∈ rt.answers f.key) ∧
    (∀ r ∈ rt.promise f.key, r.status = .cancelled ↔ true ∈ rt.answers f.key) ∧
    (rt.promise f.key ≠ [] → (rt.token f.key).cancel.2.returned = false) ∧
    ((rt.token f.key).isCancelled = true → (rt.token f.key).cancel.2.returned = false) := by
  obtain ⟨l, it, hl, hi, hreg⟩ := h.stands f hf
  obtain ⟨hk, hc⟩ := (h.born f.place l hl).contract hi hreg
  have hitem : (Lane.view f.id l).item = some it := hi
  have hne : (Lane.view f.id l).loc ≠ .absent :=
    Lane.loc_ne_absent (List.getElem?_eq_some_iff.mp hi).1
  unfold answers token promise
  rw [show rt.laneAt f.key.1 = some l from hl]
  refine ⟨hc.wins_le (fun _ => ⟨it, hitem⟩), Life.ContractAt.tells hc hne ⟨it, hitem⟩, hk.rows hc,
    fun hp => (hk.after hc hp).1, ?_⟩
  intro ht
  rw [Token.cancel_settled (Or.inr ht)]
  rfl

/-- `value` raises `OperationCancelledError` for the results of cancelled rows, and for no others -/
theorem value_cancelled_iff (o : OperationResult) :
    (∃ msg, o.value = .error (.operationCancelled msg)) ↔ o.status = .cancelled := by
  refine ⟨?_, fun h => ⟨_, OperationResult.value_cancelled h⟩⟩
  rintro ⟨msg, h⟩
  by_contra hc
  unfold OperationResult.value at h
  rw [if_neg hc] at h
  split at h <;> cases h

/-- **The cancels of a future and its result agree**: the answer of a `cancel()` is logged on the
token, at most one of the answers is `True`, `cancelled()` tells whether one is, and so does the
result: its value raises `OperationCancelledError` exactly then.  In every later state the answer
stands and every further `cancel()` returns `False`, as it does once the promise is set. -/
theorem cancel_seen (h : Reach step (create cfg) rt) (hf : rt.futures[i]? = some f) :
    (∀ b rt', rt.cancel i = some (b, rt') → rt'.answers f.key = rt.answers f.key ++ [b]) ∧
    (rt.answers f.key).count true ≤ 1 ∧
    ((rt.token f.key).isCancelled = true ↔ true ∈ rt.answers f.key) ∧
    (∀ o ∈ f.got, (∃ msg, o.value = .error (.operationCancelled msg)) ↔
      true ∈ rt.answers f.key) ∧
    ∀ rt', Reach step rt rt' → (true ∈ rt.answers f.key ∨ rt.promise f.key ≠ []) →
      (true ∈ rt.answers f.key ↔ true ∈ rt'.answers f.key) ∧
      ∀ b rt'', rt'.cancel i = some (b, rt'') → b = false := by
  have hs := sound_reach h
  have hmem := List.mem_of_getElem? hf
  obtain ⟨hone, htok, hrow, _, _⟩ := hs.tells hmem
  refine ⟨fun b rt' hc => (cancel_answer hf hc).1, hone, htok, ?_, ?_⟩
  · intro o ho
    obtain ⟨_, _, r, hp, hret, recvNs, rfl⟩ := (hs.once.fair f hmem).taken ho
    rw [value_cancelled_iff]
    exact hrow r (by rw [show rt.promise f.key = [r] from hp]; exact List.mem_singleton_self r)
  · intro rt' hr hdone
    have hs' := hs.reach hr
    obtain ⟨f', hf', hkey, _⟩ := future_reach hr hf
    obtain ⟨_, htok', hrow', hset', hrefuse'⟩ := hs'.tells (List.mem_of_getElem? hf')
    rw [hkey] at htok' hrow' hset' hrefuse'
    -- the promise of the future in the later state, when it is set already
    have hlater : rt.promise f.key ≠ [] → ∃ r, rt.promise f.key = [r] ∧ rt'.promise f.key = [r] := by
      intro hne
      obtain ⟨r, rest, hp⟩ := List.exists_cons_of_ne_nil hne
      have hp' := hs.promise_one hp
      exact ⟨r, hp', hs.promise_reach hr hp'⟩
    refine ⟨⟨answers_reach hr, ?_⟩, ?_⟩
    · intro ha
      rcases hdone with hd | hne
      · exact hd
      · obtain ⟨r, hp, hp'⟩ := hlater hne
        have hst := (hrow' r (by rw [hp']; exact List.mem_singleton_self r)).mpr ha
        exact (hrow r (by rw [hp]; exact List.mem_singleton_self r)).mp hst
    · intro b rt'' hc
      rw [(cancel_answer hf' hc).2, hkey]
      rcases hdone with hd | hne
      · exact hrefuse' (htok'.mpr (answers_reach hr hd))
      · obtain ⟨r, _, hp'⟩ := hlater hne
        exact hset' (by rw [hp']; exact List.cons_ne_nil _ _)

/-- the first cancel stands, the second one came too late -/
theorem cancel_seen_park : ∃ rt f o, Reach step (create parkConfig) rt ∧
    rt.futures[0]? = some f ∧ f.got = [o] ∧ (∃ msg, o.value = .error (.operationCancelled msg)) ∧
    (rt.token f.key).isCancelled = true := by
  obtain ⟨rt, f, o, hrun, hf, hg, _, ha, _⟩ := parkMoves_returns
  have h : Reach step (create parkConfig) rt := ⟨parkMoves, hrun⟩
  obtain ⟨_, _, htok, hvalue, _⟩ := cancel_seen h hf
  have hwon : true ∈ rt.answers f.key := by
    rw [ha]
    exact List.mem_cons_self
  exact ⟨rt, f, o, h, hf, hg, (hvalue o (by rw [hg]; exact List.mem_singleton_self o)).mpr hwon,
    htok.mpr hwon⟩

end Runtime
end Facade
end RayX
