import RayX.Wait.Python

/-!
# Waiting loses and duplicates nothing

What `wait` and `as_completed` return for different futures that are not retired, under any order in
which these become ready.

* `Hpx.Lawful`         `wait_some` as documented, and a ready future stays ready;
* `Took`               a split of the inputs whose first part is ready;
* `blockOn_spec`, `probeAll_spec`   the two forms;
* `asCompleted`        the generator, with whatever its consumer does to a future it got;
* `asCompleted_spec`   it yields each input once and stops;
* `loses_nothing_iff`  **nothing is lost up to `2 ^ 31` futures and a count that fits an `int`**.
-/

namespace RayX
open Sys

/-! ## the assumptions -/

/-- `hpx::wait_some` returns once enough of its futures are ready and only then, leaves them as they
were and does not throw; a future that is ready stays ready; time passes -/
structure Hpx.Lawful (hpx : Hpx) : Prop where
  stays : ∀ {t t' s}, t ≤ t' → hpx.ready t s = true → hpx.ready t' s = true
  query_ge : ∀ t i, t ≤ hpx.query t i
  query_mono : ∀ t {i j}, i ≤ j → hpx.query t i ≤ hpx.query t j
  keeps : hpx.Keeps
  calm : hpx.Calm
  enough : ∀ {t k v t'}, (hpx.waitSome t k v).1 = .returns t' →
    t ≤ t' ∧ k ≤ v.countP (hpx.isReady t')
  wakes : ∀ {t k v t'}, k ≤ v.countP (hpx.isReady t') → (hpx.waitSome t k v).1 ≠ .blocks

/-- none of the futures is retired -/
def Unretired (w : World) (as : List Nat) : Prop := ∀ a ∈ as, w.objs a ≠ none

/-! ## what a call owes -/

/-- the two lists of a call that began in `w` and ended in `w'` -/
structure Took (hpx : Hpx) (as : List Nat) (w w' : World) (r : List Nat × List Nat) : Prop where
  perm : (r.1 ++ r.2).Perm as
  inOrder : r.1.Sublist as ∧ r.2.Sublist as
  ready : ∀ a ∈ r.1, hpx.isReady w'.now (w.objs a) = true
  objs : w'.objs = w.objs
  now : w.now ≤ w'.now

/-- the blocking form: it waits for ever when `k` futures are never ready, or has them -/
def Blocks (hpx : Hpx) (as : List Nat) (k : Int) (w : World)
    (out : Exit (List Nat × List Nat) × World) : Prop :=
  (out.1 = .blocked ∧ ∀ t, as.countP (fun a => hpx.isReady t (w.objs a)) < k.toNat) ∨
  ∃ r, out.1 = .returned r ∧ Took hpx as w out.2 r ∧ k ≤ r.1.length

/-- the polling form -/
def Probes (hpx : Hpx) (as : List Nat) (w : World) (out : Exit (List Nat × List Nat) × World) :
    Prop := ∃ r, out.1 = .returned r ∧ Took hpx as w out.2 r

/-! ## the indices -/

section
variable {hpx : Hpx} {as : List Nat} {w : World} {k : Int}

theorem isReady_mono (hl : hpx.Lawful) {t t' : Nat} (h : t ≤ t') {f : Option Nat}
    (hf : hpx.isReady t f = true) : hpx.isReady t' f = true := by
  cases f with
  | none => cases hf
  | some s => exact hl.stays h hf

theorem exists_getElem?_cons {α : Type} {a : α} {l : List α} {P : Nat → α → Prop} :
    (∃ j b, (a :: l)[j]? = some b ∧ P j b) ↔ P 0 a ∨ ∃ j b, l[j]? = some b ∧ P (j + 1) b := by
  constructor
  · rintro ⟨j, b, hj, hb⟩
    cases j with
    | zero =>
      cases hj
      exact Or.inl hb
    | succ j => exact Or.inr ⟨j, b, hj, hb⟩
  · rintro (ha | ⟨j, b, hj, hb⟩)
    · exact ⟨0, a, rfl, ha⟩
    · exact ⟨j + 1, b, hj, hb⟩

theorem mem_readyIndices {t i : Nat} {fs : List (Option Nat)} {idx : List Int}
    (h : readyIndices hpx {} t i fs = .returned idx) (x : Int) :
    x ∈ idx ↔ ∃ j f, fs[j]? = some f ∧ hpx.isReady (hpx.query t (i + j)) f = true ∧
      x = (Int32.ofNat (i + j)).toInt := by
  induction fs generalizing i idx with
  | nil =>
    cases h
    simp
  | cons f fs ih =>
    have hrest := fun idx (hidx : readyIndices hpx {} t (i + 1) fs = .returned idx) => ih hidx
    simp only [Nat.add_assoc, Nat.add_comm 1] at hrest
    rw [readyIndices] at h
    rw [exists_getElem?_cons, Nat.add_zero]
    by_cases hf : hpx.isReady (hpx.query t i) f = true
    · rw [if_pos hf, if_neg Bool.false_ne_true] at h
      obtain ⟨rest, hreturn, rfl⟩ := Exit.map_returned h
      rw [List.mem_cons, hrest _ hreturn]
      constructor
      · rintro (hx | hx)
        · exact Or.inl ⟨hf, hx⟩
        · exact Or.inr hx
      · rintro (⟨_, hx⟩ | hx)
        · exact Or.inl hx
        · exact Or.inr hx
    · rw [if_neg hf] at h
      rw [hrest _ h]
      constructor
      · exact Or.inr
      · rintro (⟨hf', _⟩ | hx)
        · exact absurd hf' hf
        · exact hx

theorem firstBad_none {objs : Objects} {seen as : List Nat} (hn : as.Nodup)
    (hs : ∀ a ∈ as, a ∉ seen) (hu : ∀ a ∈ as, objs a ≠ none) : firstBad objs seen as = none := by
  induction as generalizing seen with
  | nil => rfl
  | cons a as ih =>
    obtain ⟨ha, hn⟩ := List.nodup_cons.mp hn
    rw [firstBad, if_neg (hu a List.mem_cons_self), if_neg (hs a List.mem_cons_self)]
    refine ih hn (fun b hb hmem => ?_) fun b hb => hu b (List.mem_cons_of_mem _ hb)
    rcases List.mem_cons.mp hmem with rfl | hmem
    · exact ha hb
    · exact hs b (List.mem_cons_of_mem _ hb) hmem

/-- different valid futures reach `wait_some` and come back -/
theorem waitFutures_taken (hkeep : hpx.Keeps) (txt : WaitTexts) (hn : as.Nodup)
    (hu : Unretired w as) (h1 : 1 ≤ k) (hk : k ≤ as.length) :
    waitFutures txt hpx {} true (as.map .future) k w =
      match (hpx.waitSome w.now k.toNat (as.map w.objs)).1 with
      | .returns t => (readyIndices hpx {} t 0 (as.map w.objs), ⟨hpx.query t as.length, w.objs⟩)
      | .raises => (.raised ⟨.runtimeError, "wait_some"⟩, w)
      | .blocks => (.blocked, ⟨w.now, (Loan.take as w.objs).2⟩) := by
  have hargs : waitArgs txt {} true (as.map Entry.future).length k = .returned () := by
    rw [List.length_map, waitArgs, if_neg (by decide), if_neg (by omega), if_neg (by omega),
      if_neg (by omega)]
    rfl
  have hcheck : checkEntries txt {} w.objs 0 (as.map .future) [] = .returned as :=
    (checkEntries_future 0 as []).2 (firstBad_none hn (by simp) hu)
  have hscreen : screen txt {} true (as.map .future) k w.objs = .returned as := by
    rw [screen, hargs]
    show (checkEntries txt {} w.objs 0 (as.map .future) []).bind _ = _
    rw [hcheck]
    rfl
  have hback : Loan.put as (as.map w.objs) (Loan.take as w.objs).2 = w.objs := by
    rw [← Loan.take_fst hn]
    exact Loan.put_take hn
  have htmp := hkeep w.now k.toNat (as.map w.objs)
  rw [waitFutures, hscreen]
  dsimp only
  rw [waitTaken, Loan.take_fst hn]
  rcases hws : hpx.waitSome w.now k.toNat (as.map w.objs) with ⟨answer, tmp⟩
  rw [hws] at htmp
  have htmp : tmp = as.map w.objs := htmp
  subst htmp
  cases answer with
  | returns t =>
    dsimp only
    rw [hback, List.length_map]
  | raises =>
    dsimp only
    rw [hback]
  | blocks => rfl

/-- the split by the indices of a vector of futures -/
theorem partitionBy_took (hl : hpx.Lawful) {t : Nat} {idx : List Int}
    (hidx : readyIndices hpx {} t 0 (as.map w.objs) = .returned idx) (ht : w.now ≤ t)
    (hlen : as.length ≤ 2 ^ 31) :
    Took hpx as w ⟨hpx.query t as.length, w.objs⟩ (partitionBy idx as) ∧
      (as.map w.objs).countP (hpx.isReady t) ≤ (partitionBy idx as).1.length := by
  have hmem := mem_readyIndices hidx
  refine ⟨⟨splitIdx_perm _ _ _, splitIdx_sublist _ _ _, ?_, rfl, ?_⟩, ?_⟩
  · intro a ha
    obtain ⟨j, hj, hin⟩ := mem_splitIdx ha
    obtain ⟨i, f, hi, hf, hx⟩ := (hmem _).mp (of_decide_eq_true hin)
    obtain ⟨b, hb, rfl⟩ := Option.map_eq_some_iff.mp ((List.getElem?_map ..).symm.trans hi)
    have hilt : i < as.length := (List.getElem?_eq_some_iff.mp hb).1
    rw [Nat.zero_add, Int32.toInt_ofNat_of_lt (by omega)] at hx
    have hij : i = j := by omega
    subst hij
    rw [hj] at hb
    cases hb
    rw [Nat.zero_add] at hf
    exact isReady_mono hl (hl.query_mono t (Nat.le_of_lt hilt)) hf
  · exact Nat.le_trans ht (hl.query_ge t _)
  · rw [List.countP_map]
    refine countP_le_splitIdx fun j a hj ha => decide_eq_true ((hmem _).mpr ?_)
    have hjlt : j < as.length := (List.getElem?_eq_some_iff.mp hj).1
    refine ⟨j, w.objs a, ?_, ?_, ?_⟩
    · rw [List.getElem?_map, hj]
      rfl
    · exact isReady_mono hl (hl.query_ge t _) ha
    · rw [Nat.zero_add, Int32.toInt_ofNat_of_lt (by omega)]

/-- **The blocking form** of up to `2 ^ 31` futures. -/
theorem blockOn_spec (hl : hpx.Lawful) (txt : WaitTexts) (hn : as.Nodup) (hu : Unretired w as)
    (h1 : 1 ≤ k) (hk : k ≤ as.length) (hlen : as.length ≤ 2 ^ 31) (hint : k < 2 ^ 31) :
    Blocks hpx as k w (blockOn (waitFutures txt hpx {} true) as k w) := by
  rw [blockOn, if_pos ⟨by omega, hint⟩, waitFutures_taken hl.keeps txt hn hu h1 hk]
  cases hws : (hpx.waitSome w.now k.toNat (as.map w.objs)).1 with
  | returns t =>
    obtain ⟨ht, hcount⟩ := hl.enough hws
    obtain ⟨idx, hidx⟩ : ∃ idx, readyIndices hpx {} t 0 (as.map w.objs) = .returned idx :=
      readyIndices_returned t 0 (as.map w.objs)
    obtain ⟨htook, hle⟩ := partitionBy_took hl hidx ht hlen
    refine Or.inr ⟨partitionBy idx as, ?_, htook, by omega⟩
    dsimp only
    rw [hidx]
    rfl
  | raises => exact absurd hws (hl.calm _ _ _)
  | blocks =>
    refine Or.inl ⟨rfl, fun t => ?_⟩
    refine Nat.lt_of_not_le fun hle => ?_
    have henough : k.toNat ≤ (as.map w.objs).countP (hpx.isReady t) := by
      rw [List.countP_map]
      exact hle
    exact hl.wakes henough hws

/-- probing valid futures -/
theorem probe_eq (retired : String) {objs : Objects} {t i : Nat} (hu : ∀ a ∈ as, objs a ≠ none) :
    probe hpx retired objs t i as
      = .returned (splitIdx (fun i a => hpx.isReady (hpx.query t i) (objs a)) i as) := by
  induction as generalizing i with
  | nil => rfl
  | cons a as ih =>
    have htail := ih (i := i + 1) fun b hb => hu b (List.mem_cons_of_mem _ hb)
    rw [probe]
    cases ha : objs a with
    | none => exact absurd ha (hu a List.mem_cons_self)
    | some s =>
      dsimp only
      rw [htail, splitIdx, ha]
      rfl

/-- **The polling form.** -/
theorem probeAll_spec (hl : hpx.Lawful) (retired : String) (hu : Unretired w as) :
    Probes hpx as w (probeAll hpx retired as w) := by
  refine ⟨_, probe_eq retired hu, splitIdx_perm _ _ _, splitIdx_sublist _ _ _, ?_, rfl,
    hl.query_ge _ _⟩
  intro a ha
  obtain ⟨j, hj, hready⟩ := mem_splitIdx ha
  have hjlt : j < as.length := (List.getElem?_eq_some_iff.mp hj).1
  rw [Nat.zero_add] at hready
  exact isReady_mono hl (hl.query_mono _ (Nat.le_of_lt hjlt)) hready

end

/-! ## the two classes -/

/-- a class with a `wait`: the arguments are the timeout, the futures and the count -/
abbrev WaitOn := Hpx → WaitTimeout → List Nat → Int → World → Exit (List Nat × List Nat) × World

/-- on a running `Runtime`, without a failing allocation -/
def PyRuntime.waitOn (shown : WaitTimeout → String) : WaitOn := fun hpx timeout as k w =>
  PyRuntime.wait hpx {} shown true (as.map .future) (.int k) timeout w

def PyEngine.waitOn (shown : WaitTimeout → String) : WaitOn := fun hpx timeout as k w =>
  PyEngine.wait hpx {} shown true (as.map .future) (.int k) timeout w

section
variable {hpx : Hpx} {as : List Nat} {w : World} {k : Int} {shown : WaitTimeout → String}

theorem engine_none (hne : as ≠ []) : PyEngine.waitOn shown hpx .none as k w
    = blockOn (Engine.wait hpx {} true) as k w := by
  rw [PyEngine.waitOn, PyEngine.wait, if_neg (by simpa using hne), attrs_future]
  rfl

theorem beforeRepeat_none {seen : List Nat} (hn : as.Nodup) (hs : ∀ a ∈ as, a ∉ seen) :
    beforeRepeat seen as = none := by
  induction as generalizing seen with
  | nil => rfl
  | cons a as ih =>
    obtain ⟨ha, hn⟩ := List.nodup_cons.mp hn
    rw [beforeRepeat, if_neg (hs a List.mem_cons_self), ih hn]
    · rfl
    · intro b hb hmem
      rcases List.mem_cons.mp hmem with rfl | hmem
      · exact ha hb
      · exact hs b (List.mem_cons_of_mem _ hb) hmem

theorem seenLoop_nodup (txt : WaitTexts) (attr : String) (hn : as.Nodup) :
    seenLoop txt attr [] (as.map .future) = .returned as := by
  rw [seenLoop_future, beforeRepeat_none hn (by simp)]
  rfl

theorem engine_zero (hne : as ≠ []) (hn : as.Nodup) (h1 : 1 ≤ k) (hk : k ≤ as.length) :
    PyEngine.waitOn shown hpx (.finite 0) as k w
      = probeAll hpx "Future is invalid (already retired via result()); cannot query ready()" as
          w := by
  have htime : validateTimeout shown (.finite 0) = .returned 0 := by
    rw [validateTimeout, if_neg Rat.lt_irrefl]
  rw [PyEngine.waitOn, PyEngine.wait, if_neg (by simpa using hne), htime]
  · dsimp only [Exit.before, PyEngine.toInt]
    rw [if_neg Rat.lt_irrefl, if_neg (by decide), if_neg (by omega), List.length_map,
      if_neg (by omega), seenLoop_nodup _ _ hn]
  · intro h
    cases h

theorem runtime_zero (hne : as ≠ []) (hn : as.Nodup) (h1 : 1 ≤ k) (hk : k ≤ as.length) :
    PyRuntime.waitOn shown hpx (.finite 0) as k w
      = probeAll hpx "RuntimeFuture is invalid (already retired via result()); cannot query ready()"
          as w := by
  rw [PyRuntime.waitOn, wait_zero hne h1 hk, seenLoop_nodup _ _ hn]
  rfl

end

/-! ## as_completed -/

/-- `as_completed` with at most `fuel` sweeps: the futures it yields, and how it ends; `consume` is
what its consumer does between two of them -/
def asCompleted (wait : List Nat → World → Exit (List Nat × List Nat) × World)
    (consume : Nat → World → World) : Nat → List Nat → World → List Nat × Option (Exit Unit)
  | _, [], _ => ([], some (.returned ()))
  | 0, _ :: _, _ => ([], none)
  | fuel + 1, a :: as, w =>
    match wait (a :: as) w with
    | (.returned (ready, inflight), w') =>
      let r := asCompleted wait consume fuel inflight (ready.foldl (fun w a => consume a w) w')
      (ready ++ r.1, r.2)
    | (.raised e, _) => ([], some (.raised e))
    | (.blocked, _) => ([], some .blocked)
    | (.crashed, _) => ([], some .crashed)

/-- a consumer changes no future but the one it got, and time passes -/
def Consumes (consume : Nat → World → World) : Prop :=
  ∀ a w, w.now ≤ (consume a w).now ∧ ∀ b, b ≠ a → (consume a w).objs b = w.objs b

theorem consumed {consume : Nat → World → World} (hc : Consumes consume) (ready : List Nat)
    (w : World) : ∀ b, b ∉ ready → (ready.foldl (fun w a => consume a w) w).objs b = w.objs b := by
  induction ready generalizing w with
  | nil => exact fun b _ => rfl
  | cons a ready ih =>
    intro b hb
    rw [List.foldl_cons, ih _ b fun h => hb (List.mem_cons_of_mem _ h)]
    exact (hc a w).2 b fun hba => hb (hba ▸ List.mem_cons_self)

/-- every future is ready at some time -/
def Eventually (hpx : Hpx) (w : World) (as : List Nat) : Prop :=
  ∀ a ∈ as, ∃ t, hpx.isReady t (w.objs a) = true

/-- **The generator yields each input once and stops.** -/
theorem asCompleted_spec {hpx : Hpx} {wait : List Nat → World → Exit (List Nat × List Nat) × World}
    {consume : Nat → World → World} {as : List Nat} {w : World} (hc : Consumes consume)
    (hwait : ∀ as w, as ≠ [] → as.Nodup → Unretired w as → as.length ≤ 2 ^ 31 →
      Blocks hpx as 1 w (wait as w))
    (hn : as.Nodup) (he : Eventually hpx w as) (hlen : as.length ≤ 2 ^ 31) {fuel : Nat}
    (hfuel : as.length ≤ fuel) :
    (asCompleted wait consume fuel as w).2 = some (.returned ()) ∧
      (asCompleted wait consume fuel as w).1.Perm as := by
  induction fuel generalizing as w with
  | zero =>
    have hnil : as = [] := List.length_eq_zero_iff.mp (by omega)
    subst hnil
    exact ⟨rfl, .refl _⟩
  | succ fuel ih =>
    cases as with
    | nil => exact ⟨rfl, .refl _⟩
    | cons a as =>
      have hu : Unretired w (a :: as) := by
        intro b hb hnone
        obtain ⟨t, ht⟩ := he b hb
        rw [hnone] at ht
        cases ht
      rcases hwait (a :: as) w (by simp) hn hu hlen with ⟨_, hnever⟩ | ⟨r, hr, htook, hone⟩
      · -- the first future is ready at some time
        obtain ⟨t, ht⟩ := he a List.mem_cons_self
        have hpos : 0 < (a :: as).countP fun a => hpx.isReady t (w.objs a) :=
          List.countP_pos_iff.mpr ⟨a, List.mem_cons_self, ht⟩
        have := hnever t
        omega
      · obtain ⟨ready, rest⟩ := r
        rcases hw : wait (a :: as) w with ⟨out, w'⟩
        rw [hw] at hr htook
        dsimp only at hr htook hone
        subst hr
        have hnodup : (ready ++ rest).Nodup := htook.perm.nodup_iff.mpr hn
        have hdisj := List.disjoint_of_nodup_append hnodup
        have hsum : ready.length + rest.length = (a :: as).length := by
          rw [← htook.perm.length_eq, List.length_append]
        have he' : Eventually hpx (ready.foldl (fun w a => consume a w) w') rest := by
          intro b hb
          rw [consumed hc ready w' b fun h => hdisj h hb, htook.objs]
          exact he b (htook.inOrder.2.subset hb)
        obtain ⟨hend, hperm⟩ := ih (List.Nodup.of_append_right hnodup) he' (by omega) (by omega)
        rw [asCompleted, hw]
        exact ⟨hend, (List.Perm.append_left ready hperm).trans htook.perm⟩

/-! ## the claim on a class -/

/-- nothing is lost and nothing comes twice, whenever the futures become ready -/
structure LosesNothing (wait : WaitOn) (as : List Nat) (k : Int) : Prop where
  blocks : as ≠ [] → ∀ hpx w, hpx.Lawful → Unretired w as →
    Blocks hpx as k w (wait hpx .none as k w)
  polls : as ≠ [] → ∀ hpx w, hpx.Lawful → Unretired w as →
    Probes hpx as w (wait hpx (.finite 0) as k w)
  completes : ∀ hpx w consume, hpx.Lawful → Consumes consume → Eventually hpx w as →
    (asCompleted (fun as w => wait hpx .none as 1 w) consume as.length as w).2
        = some (.returned ()) ∧
      (asCompleted (fun as w => wait hpx .none as 1 w) consume as.length as w).1.Perm as

theorem loses_nothing_of_specs {wait : WaitOn} {as : List Nat} {k : Int} (hn : as.Nodup)
    (h1 : as ≠ [] → 1 ≤ k) (hk : as ≠ [] → k ≤ as.length) (hlen : as.length ≤ 2 ^ 31)
    (hint : as ≠ [] → k < 2 ^ 31)
    (hblock : ∀ hpx as (k : Int) w, hpx.Lawful → as ≠ [] → as.Nodup → Unretired w as → 1 ≤ k →
      k ≤ as.length → as.length ≤ 2 ^ 31 → k < 2 ^ 31 → Blocks hpx as k w (wait hpx .none as k w))
    (hpoll : ∀ hpx as (k : Int) w, hpx.Lawful → as ≠ [] → as.Nodup → Unretired w as → 1 ≤ k →
      k ≤ as.length → Probes hpx as w (wait hpx (.finite 0) as k w)) :
    LosesNothing wait as k where
  blocks hne hpx w hl hu := hblock hpx as k w hl hne hn hu (h1 hne) (hk hne) hlen (hint hne)
  polls hne hpx w hl hu := hpoll hpx as k w hl hne hn hu (h1 hne) (hk hne)
  completes hpx w consume hl hc he := by
    refine asCompleted_spec hc (fun as w hne hn hu hlen => ?_) hn he hlen (Nat.le_refl _)
    have hpos := List.length_pos_iff.mpr hne
    exact hblock hpx as 1 w hl hne hn hu (by omega) (by omega) hlen (by omega)

theorem runtime_loses_nothing (shown : WaitTimeout → String) {as : List Nat} {k : Int}
    (hn : as.Nodup) (h1 : as ≠ [] → 1 ≤ k) (hk : as ≠ [] → k ≤ as.length)
    (hlen : as.length ≤ 2 ^ 31) (hint : as ≠ [] → k < 2 ^ 31) :
    LosesNothing (PyRuntime.waitOn shown) as k := by
  refine loses_nothing_of_specs hn h1 hk hlen hint ?_ ?_
  · intro hpx as k w hl hne hn hu h1 hk hlen hint
    rw [PyRuntime.waitOn, wait_none hne h1 hk]
    exact blockOn_spec hl runtimeTexts hn hu h1 hk hlen hint
  · intro hpx as k w hl hne hn hu h1 hk
    rw [runtime_zero hne hn h1 hk]
    exact probeAll_spec hl _ hu

theorem engine_loses_nothing (shown : WaitTimeout → String) {as : List Nat} {k : Int}
    (hn : as.Nodup) (h1 : as ≠ [] → 1 ≤ k) (hk : as ≠ [] → k ≤ as.length)
    (hlen : as.length ≤ 2 ^ 31) (hint : as ≠ [] → k < 2 ^ 31) :
    LosesNothing (PyEngine.waitOn shown) as k := by
  refine loses_nothing_of_specs hn h1 hk hlen hint ?_ ?_
  · intro hpx as k w hl hne hn hu h1 hk hlen hint
    rw [engine_none hne]
    exact blockOn_spec hl engineTexts hn hu h1 hk hlen hint
  · intro hpx as k w hl hne hn hu h1 hk
    rw [engine_zero hne hn h1 hk]
    exact probeAll_spec hl _ hu

/-! ## beyond an `int` -/

/-- the futures of `done` are ready from the start, the others never -/
def doneHpx (done : Nat → Bool) : Hpx where
  waitSome t k v := (if k ≤ v.countP (·.any done) then .returns t else .blocks, v)
  ready _ s := done s
  query t i := t + i

theorem doneHpx_lawful (done : Nat → Bool) : (doneHpx done).Lawful where
  stays _ h := h
  query_ge t i := Nat.le_add_right t i
  query_mono t _ _ h := Nat.add_le_add_left h t
  keeps _ _ _ := rfl
  calm t k v := by
    show (if _ then _ else _) ≠ _
    split
    · intro h
      cases h
    · intro h
      cases h
  enough {t k v t'} h := by
    have hif : (if k ≤ v.countP (·.any done) then WaitAnswer.returns t else .blocks) = .returns t' := h
    split at hif
    · rename_i hk
      cases hif
      exact ⟨Nat.le_refl _, hk⟩
    · cases hif
  wakes {t k v t'} hk h := by
    have hif : (if k ≤ v.countP (·.any done) then WaitAnswer.returns t else .blocks) = .blocks := h
    have hk' : k ≤ v.countP (·.any done) := hk
    rw [if_pos hk'] at hif
    cases hif

/-- each future has a state of its own -/
def ownStates : World := ⟨0, some⟩

theorem ownStates_unretired (as : List Nat) : Unretired ownStates as := by
  intro a _ h
  cases h

/-- a count that is no `int` is a `TypeError` of the native call -/
theorem not_blocks_of_count {wait : List Entry → Int → World → Exit (List Int) × World}
    {hpx : Hpx} {as : List Nat} {k : Int} {w : World} (hk : ¬ k < 2 ^ 31) :
    ¬ Blocks hpx as k w (blockOn wait as k w) := by
  rw [blockOn, if_neg fun h => hk h.2]
  rintro (⟨h, _⟩ | ⟨r, h, _⟩)
  · cases h
  · cases h

/-- the first `m` futures and the one whose index does not fit -/
def lateDone (as : List Nat) (m : Nat) (s : Nat) : Bool :=
  decide (s ∈ as.take m) || decide (as[2 ^ 31]? = some s)

theorem lateDone_count {as : List Nat} {m : Nat} (hm : m < 2 ^ 31) (hlen : 2 ^ 31 < as.length) :
    m + 1 ≤ as.countP (lateDone as m) := by
  have htake : (as.take m).countP (lateDone as m) = m := by
    rw [List.countP_eq_length.mpr, List.length_take_of_le (by omega)]
    intro a ha
    rw [lateDone, decide_eq_true ha, Bool.true_or]
  have hdrop : 0 < (as.drop m).countP (lateDone as m) := by
    refine List.countP_pos_iff.mpr ⟨as[2 ^ 31], ?_, ?_⟩
    · rw [List.mem_iff_getElem?]
      exact ⟨2 ^ 31 - m, by
        rw [List.getElem?_drop, Nat.add_sub_cancel' (Nat.le_of_lt hm), List.getElem?_eq_getElem]⟩
    · rw [lateDone, decide_eq_true (List.getElem?_eq_getElem hlen), Bool.or_true]
  calc m + 1 ≤ (as.take m).countP (lateDone as m) + (as.drop m).countP (lateDone as m) := by omega
    _ = as.countP (lateDone as m) := by rw [← List.countP_append, List.take_append_drop]

/-- the index `2 ^ 31` is cast to a negative number -/
theorem toInt_late : (Int32.ofNat (2 ^ 31)).toInt = -2 ^ 31 := by decide

/-- the split by those indices finds the first `m` at most -/
theorem lateDone_reported {as : List Nat} {m : Nat} (hn : as.Nodup) (hm : m < 2 ^ 31)
    {idx : List Int}
    (hidx : readyIndices (doneHpx (lateDone as m)) {} 0 0 (as.map some) = .returned idx) :
    (partitionBy idx as).1.length ≤ m := by
  refine splitIdx_le fun j a hj hin => ?_
  obtain ⟨i, f, hi, hf, hx⟩ := (mem_readyIndices hidx _).mp (of_decide_eq_true hin)
  obtain ⟨b, hb, rfl⟩ := Option.map_eq_some_iff.mp ((List.getElem?_map ..).symm.trans hi)
  have hilt : i < as.length := (List.getElem?_eq_some_iff.mp hb).1
  have hdone : lateDone as m b = true := hf
  simp only [Nat.zero_add] at hx
  rw [lateDone, Bool.or_eq_true, decide_eq_true_iff, decide_eq_true_iff] at hdone
  rcases hdone with hb' | hb'
  · -- one of the first `m`
    obtain ⟨i', hi'⟩ := List.mem_iff_getElem?.mp hb'
    have hi'm : i' < m := by
      have := (List.getElem?_eq_some_iff.mp hi').1
      rw [List.length_take] at this
      omega
    rw [List.getElem?_take_of_lt hi'm] at hi'
    have hii : i = i' := (List.getElem?_inj hilt hn).mp (by rw [hb, hi'])
    rw [Int32.toInt_ofNat_of_lt (by omega)] at hx
    omega
  · have hii : i = 2 ^ 31 := (List.getElem?_inj hilt hn).mp (by rw [hb, hb'])
    rw [hii, toInt_late] at hx
    omega

/-- with more futures a ready one is not reported -/
theorem not_blocks_of_length (txt : WaitTexts) {as : List Nat} {k : Int} (hn : as.Nodup)
    (hlen : 2 ^ 31 < as.length) (h1 : 1 ≤ k) (hint : k < 2 ^ 31) :
    ¬ Blocks (doneHpx (lateDone as (k - 1).toNat)) as k ownStates
      (blockOn (waitFutures txt (doneHpx (lateDone as (k - 1).toNat)) {} true) as k ownStates) := by
  have hm : (k - 1).toNat < 2 ^ 31 := by omega
  have hcount := lateDone_count hm hlen
  generalize hmk : (k - 1).toNat = m at hm hcount ⊢
  have hl := doneHpx_lawful (lateDone as m)
  have hws : ((doneHpx (lateDone as m)).waitSome 0 k.toNat (as.map some)).1 = .returns 0 := by
    refine if_pos ?_
    rw [List.countP_map]
    show k.toNat ≤ as.countP (lateDone as m)
    omega
  obtain ⟨idx, hidx⟩ :
      ∃ idx, readyIndices (doneHpx (lateDone as m)) {} 0 0 (as.map some) = .returned idx :=
    readyIndices_returned 0 0 (as.map some)
  have hshort := lateDone_reported hn hm hidx
  rw [blockOn, if_pos ⟨by omega, hint⟩,
    waitFutures_taken hl.keeps txt hn (ownStates_unretired as) h1 (by omega)]
  rintro (⟨h, hnever⟩ | ⟨r, hr, -, hk⟩)
  · have hlt : as.countP (lateDone as m) < k.toNat := hnever 0
    omega
  · have hws' : ((doneHpx (lateDone as m)).waitSome ownStates.now k.toNat
        (as.map ownStates.objs)).1 = .returns 0 := hws
    rw [hws'] at hr
    have hidx' : readyIndices (doneHpx (lateDone as m)) {} 0 0 (as.map ownStates.objs)
        = .returned idx := hidx
    dsimp only at hr
    rw [hidx'] at hr
    cases hr
    have hle : k ≤ (partitionBy idx as).1.length := hk
    omega

/-- what no class can keep -/
theorem not_loses_nothing {wait : WaitOn} {txt : WaitTexts} {as : List Nat} {k : Int}
    (hwait : ∀ hpx w, wait hpx .none as k w = blockOn (waitFutures txt hpx {} true) as k w)
    (hne : as ≠ []) (hn : as.Nodup) (h1 : 1 ≤ k) (hbig : ¬ (as.length ≤ 2 ^ 31 ∧ k < 2 ^ 31)) :
    ¬ LosesNothing wait as k := by
  intro h
  by_cases hint : k < 2 ^ 31
  · have hlen : 2 ^ 31 < as.length := by omega
    have hb := h.blocks hne _ _ (doneHpx_lawful (lateDone as (k - 1).toNat))
      (ownStates_unretired as)
    rw [hwait] at hb
    exact not_blocks_of_length txt hn hlen h1 hint hb
  · have hb := h.blocks hne _ _ (doneHpx_lawful fun _ => true) (ownStates_unretired as)
    rw [hwait] at hb
    exact not_blocks_of_count hint hb

/-- **`wait` and `as_completed` lose and duplicate nothing**, on both classes, exactly up to
`2 ^ 31` futures and a count that fits an `int`. -/
theorem loses_nothing_iff (shown : WaitTimeout → String) {as : List Nat} (hn : as.Nodup) {k : Int}
    (hk : as ≠ [] → 1 ≤ k ∧ k ≤ as.length) :
    (LosesNothing (PyRuntime.waitOn shown) as k ∧ LosesNothing (PyEngine.waitOn shown) as k) ↔
      as.length ≤ 2 ^ 31 ∧ (as ≠ [] → k < 2 ^ 31) := by
  have h1 : as ≠ [] → 1 ≤ k := fun hne => (hk hne).1
  have hle : as ≠ [] → k ≤ as.length := fun hne => (hk hne).2
  constructor
  · rintro ⟨hr, -⟩
    by_cases hne : as = []
    · subst hne
      exact ⟨Nat.zero_le _, fun h => absurd rfl h⟩
    · have hwait : ∀ hpx w, PyRuntime.waitOn shown hpx .none as k w
          = blockOn (waitFutures runtimeTexts hpx {} true) as k w :=
        fun hpx w => wait_none hne (h1 hne) (hle hne)
      refine Decidable.by_contra fun hbig => ?_
      exact not_loses_nothing hwait hne hn (h1 hne) (fun h => hbig ⟨h.1, fun _ => h.2⟩) hr
  · rintro ⟨hlen, hint⟩
    exact ⟨runtime_loses_nothing shown hn h1 hle hlen hint,
      engine_loses_nothing shown hn h1 hle hlen hint⟩

theorem loses_nothing_three :
    LosesNothing (PyRuntime.waitOn fun _ => "") [4, 0, 7] 2 ∧
      LosesNothing (PyEngine.waitOn fun _ => "") [4, 0, 7] 2 :=
  (loses_nothing_iff (fun _ => "") (by decide) (fun _ => by decide)).mpr
    ⟨by decide, fun _ => by decide⟩

/-- of `2 ^ 31 + 1` futures the last is not reported when it alone is ready -/
theorem last_lost : ¬ LosesNothing (PyRuntime.waitOn fun _ => "") (List.range (2 ^ 31 + 1)) 1 := by
  have hlen : (List.range (2 ^ 31 + 1)).length = 2 ^ 31 + 1 := List.length_range
  have hne : List.range (2 ^ 31 + 1) ≠ [] := by
    intro h
    rw [h] at hlen
    cases hlen
  refine not_loses_nothing (fun hpx w => wait_none hne (by decide) (by omega)) hne
    List.nodup_range (by decide) fun h => ?_
  omega

end RayX
