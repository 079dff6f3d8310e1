import RayX.Lib.Split
import RayX.Bench.Loop
import RayX.Bench.Service

/-!
# The drivers of the benchmark

The C++ and the Python drivers, each as the loops that it runs over the shared lanes.

* `front`, `waitAny`, `waitAll`, `engineWait`   the ways to retire;
* `Native.dispatchOneByOne` … `Python.runBatchWait`   the seven drivers;
* `blocks_range`          the blocks of the client threads are the whole index range;
* `Exact`                 what a driver owes;
* `drivers_exact`         **every driver submits and records each request once, with the work that
                          was submitted for it**.
-/

namespace RayX
namespace Bench
open Sys

/-! ## retiring -/

section
variable {E : Type}

/-- `inflight.front().get()` -/
def front (f : Probe E) : List E → Option (List E × List E)
  | [] => none
  | e :: es => if f 0 e then some ([e], es) else none

/-- up to `k` ready futures from number `i` on, and the ones that are kept -/
def sweep (f : Probe E) : Nat → Nat → List E → List E × List E
  | _, _, [] => ([], [])
  | k, i, e :: es =>
    if 0 < k ∧ f i e = true then
      let r := sweep f (k - 1) (i + 1) es
      (e :: r.1, r.2)
    else
      let r := sweep f k (i + 1) es
      (r.1, e :: r.2)

/-- `hpx::wait_any`, then the sweep -/
def waitAny (k : Nat) (f : Probe E) (l : List E) : Option (List E × List E) :=
  if l.any (f 0) then some (sweep f k 0 l) else none

/-- `hpx::wait_all` -/
def waitAll (f : Probe E) (l : List E) : Option (List E × List E) :=
  if l.all (f 0) then some (l, []) else none

/-- `Engine.wait(futs, num_returns=1)`: the ready futures and the others -/
def engineWait (f : Probe E) (l : List E) : Option (List E × List E) :=
  if l.any (f 0) then some (splitIdx f 0 l) else none

/-- the first `k` ready futures, and those in flight that are not among them -/
def retireReady (token : E → Nat) (k : Nat) (f : Probe E) (l : List E) :
    Option (List E × List E) :=
  (engineWait f l).map fun r =>
    (r.1.take k, l.filter fun e => decide (token e ∉ (r.1.take k).map token))

variable {f : Probe E} {l : List E} {r : List E × List E} {k : Nat} {token : E → Nat}

theorem front_eq (h : front f l = some r) : ∃ e, f 0 e = true ∧ l = e :: r.2 ∧ r.1 = [e] := by
  cases l with
  | nil => cases h
  | cons e es =>
    rw [front] at h
    split at h
    · cases h
      exact ⟨e, ‹_›, rfl, rfl⟩
    · cases h

theorem sweep_perm (f : Probe E) (k i : Nat) (l : List E) :
    ((sweep f k i l).1 ++ (sweep f k i l).2).Perm l := by
  induction l generalizing k i with
  | nil => exact .refl _
  | cons e es ih =>
    rw [sweep]
    split
    · exact (ih (k - 1) (i + 1)).cons e
    · exact List.perm_middle.trans ((ih k (i + 1)).cons e)

theorem sweep_pos {i j : Nat} {e : E} (hk : 0 < k) (hj : l[j]? = some e)
    (hf : f (i + j) e = true) : 0 < (sweep f k i l).1.length := by
  induction l generalizing i j with
  | nil => cases hj
  | cons a l ih =>
    rw [sweep]
    by_cases ha : 0 < k ∧ f i a = true
    · rw [if_pos ha]
      exact Nat.succ_pos _
    · rw [if_neg ha]
      cases j with
      | zero =>
        cases hj
        exact absurd ⟨hk, hf⟩ ha
      | succ j => exact ih hj (by rw [show i + 1 + j = i + (j + 1) by omega]; exact hf)

theorem waitAny_eq (h : waitAny k f l = some r) : l.any (f 0) = true ∧ r = sweep f k 0 l := by
  unfold waitAny at h
  split at h
  · cases h
    exact ⟨‹_›, rfl⟩
  · cases h

theorem waitAll_eq (h : waitAll f l = some r) : r = (l, []) := by
  unfold waitAll at h
  split at h
  · cases h
    rfl
  · cases h

theorem retireReady_eq (h : retireReady token k f l = some r) :
    l.any (f 0) = true ∧ r.1 = (splitIdx f 0 l).1.take k ∧
      r.2 = l.filter fun e => decide (token e ∉ r.1.map token) := by
  unfold retireReady engineWait at h
  split at h
  · cases h
    exact ⟨‹_›, rfl, rfl⟩
  · cases h

theorem retireReady_sublist (h : retireReady token k f l = some r) : r.1.Sublist l := by
  rw [(retireReady_eq h).2.1]
  exact (List.take_sublist _ _).trans (splitIdx_sublist f 0 l).1

/-- the entries whose token is one of a part of the list -/
theorem sublist_filter {l' : List E} (h : l'.Sublist l) :
    l'.Sublist (l.filter fun e => decide (token e ∈ l'.map token)) := by
  have hself : l'.filter (fun e => decide (token e ∈ l'.map token)) = l' :=
    List.filter_eq_self.mpr fun e he => decide_eq_true (List.mem_map_of_mem he)
  have hfilter := h.filter fun e => decide (token e ∈ l'.map token)
  rwa [hself] at hfilter

theorem retireReady_length (h : retireReady token k f l = some r) :
    r.1.length + r.2.length ≤ l.length := by
  have hle : r.1.length ≤ (l.filter fun e => decide (token e ∈ r.1.map token)).length :=
    (sublist_filter (retireReady_sublist h)).length_le
  have hsum := List.length_eq_length_filter_add (l := l) fun e => decide (token e ∈ r.1.map token)
  have hnot : (fun e => decide (token e ∉ r.1.map token))
      = fun e => !decide (token e ∈ r.1.map token) := funext fun e => decide_not
  rw [(retireReady_eq h).2.2, hnot]
  omega

theorem retireReady_perm (hn : (l.map token).Nodup) (h : retireReady token k f l = some r) :
    (r.1 ++ r.2).Perm l := by
  have hsub := retireReady_sublist h
  have hnot : (fun e => decide (token e ∉ r.1.map token))
      = fun e => !decide (token e ∈ r.1.map token) := funext fun e => decide_not
  have hsame : r.1.Perm (l.filter fun e => decide (token e ∈ r.1.map token)) := by
    have hnl : l.Nodup := List.Nodup.of_map _ hn
    refine (List.perm_ext_iff_of_nodup (hnl.sublist hsub) (hnl.filter _)).mpr fun e => ?_
    rw [List.mem_filter, decide_eq_true_iff]
    constructor
    · intro he
      exact ⟨hsub.subset he, List.mem_map_of_mem he⟩
    · rintro ⟨he, hmem⟩
      obtain ⟨e', he', htok⟩ := List.mem_map.mp hmem
      rw [← List.inj_on_of_nodup_map hn (hsub.subset he') he htok]
      exact he'
  rw [(retireReady_eq h).2.2, hnot]
  exact (hsame.append_right _).trans (List.filter_append_perm _ l)

/-- a future that the wait has found ready is found by the later probes too -/
theorem any_probe (hmono : ∀ i j e, i ≤ j → f i e = true → f j e = true)
    (h : l.any (f 0) = true) : ∃ j e, l[j]? = some e ∧ f (0 + j) e = true := by
  obtain ⟨e, he, hf⟩ := List.any_eq_true.mp h
  obtain ⟨j, hj⟩ := List.mem_iff_getElem?.mp he
  exact ⟨j, e, hj, hmono 0 (0 + j) e (Nat.zero_le _) hf⟩

theorem retireReady_pos (hk : 0 < k) (hmono : ∀ i j e, i ≤ j → f i e = true → f j e = true)
    (h : retireReady token k f l = some r) : 0 < r.1.length := by
  obtain ⟨hany, hr, _⟩ := retireReady_eq h
  have hcount : 0 < l.countP (f 0) := List.countP_pos_iff.mpr (List.any_eq_true.mp hany)
  have hle : l.countP (f 0) ≤ (splitIdx f 0 l).1.length :=
    countP_le_splitIdx fun j e _ hf => hmono 0 (0 + j) e (Nat.zero_le _) hf
  rw [hr, List.length_take]
  omega

theorem some_window {n m : Nat} (hn : 0 < n) (h : some n = some m) : 0 < m := by
  cases h
  exact hn

theorem none_window {m : Nat} (h : none = some m) : 0 < m := by cases h

theorem front_length (h : front f l = some r) : r.1.length + r.2.length ≤ l.length := by
  obtain ⟨e, _, hl, hr⟩ := front_eq h
  rw [hl, hr]
  show 1 + r.2.length ≤ r.2.length + 1
  omega

theorem front_perm (h : front f l = some r) : (r.1 ++ r.2).Perm l := by
  obtain ⟨e, _, hl, hr⟩ := front_eq h
  rw [hl, hr]
  exact .refl _

theorem front_pos (h : front f l = some r) : 0 < r.1.length := by
  obtain ⟨e, _, _, hr⟩ := front_eq h
  rw [hr]
  exact Nat.zero_lt_one

theorem front_some (hne : l ≠ []) (h : ∀ i, ∀ e ∈ l, f i e = true) : front f l ≠ none := by
  cases l with
  | nil => exact absurd rfl hne
  | cons e es =>
    rw [front, if_pos (h 0 e List.mem_cons_self)]
    exact Option.some_ne_none _

theorem waitAny_length (h : waitAny k f l = some r) : r.1.length + r.2.length ≤ l.length := by
  rw [(waitAny_eq h).2, ← List.length_append, (sweep_perm f k 0 l).length_eq]

theorem waitAny_perm (h : waitAny k f l = some r) : (r.1 ++ r.2).Perm l := by
  rw [(waitAny_eq h).2]
  exact sweep_perm f k 0 l

theorem waitAny_pos (hk : 0 < k) (hmono : ∀ i j e, i ≤ j → f i e = true → f j e = true)
    (h : waitAny k f l = some r) : 0 < r.1.length := by
  obtain ⟨hany, hr⟩ := waitAny_eq h
  obtain ⟨j, e, hj, hf⟩ := any_probe hmono hany
  rw [hr]
  exact sweep_pos hk hj hf

theorem any_of_all (hne : l ≠ []) (h : ∀ i, ∀ e ∈ l, f i e = true) : l.any (f 0) = true := by
  obtain ⟨e, es, rfl⟩ := List.exists_cons_of_ne_nil hne
  exact List.any_eq_true.mpr ⟨e, List.mem_cons_self, h 0 e List.mem_cons_self⟩

theorem waitAny_some (hne : l ≠ []) (h : ∀ i, ∀ e ∈ l, f i e = true) : waitAny k f l ≠ none := by
  rw [waitAny, if_pos (any_of_all hne h)]
  exact Option.some_ne_none _

theorem retireReady_some (hne : l ≠ []) (h : ∀ i, ∀ e ∈ l, f i e = true) :
    retireReady token k f l ≠ none := by
  rw [retireReady, engineWait, if_pos (any_of_all hne h)]
  exact Option.some_ne_none _

theorem waitAll_length (h : waitAll f l = some r) : r.1.length + r.2.length ≤ l.length := by
  rw [waitAll_eq h]
  exact Nat.le_refl _

theorem waitAll_perm (h : waitAll f l = some r) : (r.1 ++ r.2).Perm l := by
  rw [waitAll_eq h]
  exact .of_eq (List.append_nil l)

theorem waitAll_pos (hne : l ≠ []) (h : waitAll f l = some r) : 0 < r.1.length := by
  rw [waitAll_eq h]
  exact List.length_pos_iff.mpr hne

theorem waitAll_some (h : ∀ i, ∀ e ∈ l, f i e = true) : waitAll f l ≠ none := by
  rw [waitAll, if_pos (List.all_eq_true.mpr (h 0))]
  exact Option.some_ne_none _

end

/-! ## loops -/

/-- hold a window, retire the oldest -/
def fifoLoop {E : Type} (cl : Client E) (index : Nat → Nat) (first stop window : Nat) (hw : 0 < window)
    (record : Bool) : Loop cl where
  index := index
  first := first
  stop := stop
  window := some window
  record := record
  retire := front
  window_pos _ h := some_window hw h
  retire_length := front_length
  retire_perm _ h := front_perm h
  retire_pos _ _ h := front_pos h
  retire_some := front_some

/-! ## the options -/

/-- what `parse_args` has accepted -/
structure Options where
  service : ServiceOptions
  concurrency : Nat
  waitBatch : Nat
  numLanes : Nat
  clientThreads : Nat
  concurrency_pos : 0 < concurrency
  waitBatch_pos : 0 < waitBatch
  numLanes_pos : 0 < numLanes
  clientThreads_pos : 0 < clientThreads

/-- one line of the output -/
structure Row where
  requestId : String
  serviceMsRequested : Float

/-- the number of client threads for `count` requests -/
def threadCount (clientThreads count : Nat) : Nat := min clientThreads (max 1 count)

/-- the window of client thread `k` of `t` -/
def windowOf (concurrency t k : Nat) : Nat :=
  max 1 (concurrency / t + if k < concurrency % t then 1 else 0)

/-- where the block of client thread `k` of `t` starts -/
def blockStart (count t k : Nat) : Nat := count * k / t

theorem windowOf_pos (concurrency t k : Nat) : 0 < windowOf concurrency t k :=
  Nat.lt_of_lt_of_le Nat.zero_lt_one (Nat.le_max_left _ _)

/-! ## C++ -/

namespace Native

structure Options extends Bench.Options where
  seed : Int64

/-- `hpx::future<Result>`; the lane copies the id of the request to the `Result` -/
structure Future where
  token : Nat
  requestId : String

variable (opt : Options)

/-- `submit_idx`, `submit_idx_atomic` -/
def client : Client Future where
  request idx := ⟨requestId idx, serviceFor opt.service opt.seed idx⟩
  entry idx n := ⟨n, requestId idx⟩
  token := Future.token
  token_entry _ _ := rfl

def dispatchOneByOne (count : Nat) (record : Bool) : List (Loop (client opt)) :=
  [fifoLoop (client opt) id 0 count opt.concurrency opt.concurrency_pos record]

def dispatchBatchWait (count : Nat) (record : Bool) : List (Loop (client opt)) :=
  [{ index := id
     first := 0
     stop := count
     window := some opt.concurrency
     record := record
     retire := waitAny opt.waitBatch
     window_pos := fun _ h => some_window opt.concurrency_pos h
     retire_length := waitAny_length
     retire_perm := fun _ h => waitAny_perm h
     retire_pos := fun hmono _ h => waitAny_pos opt.waitBatch_pos hmono h
     retire_some := waitAny_some }]

/-- no window: everything is submitted before the one wait -/
def dispatchSubmitAll (count : Nat) (record : Bool) : List (Loop (client opt)) :=
  [{ index := id
     first := 0
     stop := count
     window := none
     record := record
     retire := waitAll
     window_pos := fun _ h => none_window h
     retire_length := waitAll_length
     retire_perm := fun _ h => waitAll_perm h
     retire_pos := fun _ hne h => waitAll_pos hne h
     retire_some := fun _ h => waitAll_some h }]

/-- the indices `[start, stop)` of one client thread -/
def clientLoopOneByOne (start stop window : Nat) (hw : 0 < window) (record : Bool) :
    Loop (client opt) :=
  fifoLoop (client opt) id start stop window hw record

def dispatchOneByOneThreaded (count : Nat) (record : Bool) : List (Loop (client opt)) :=
  let t := threadCount opt.clientThreads count
  (List.range t).map fun k =>
    clientLoopOneByOne opt (blockStart count t k) (blockStart count t (k + 1))
      (windowOf opt.concurrency t k) (windowOf_pos _ _ _) record

/-- the row that `main` writes for a `Result` -/
def row (r : Future) : Row :=
  let idx := idxFromRequestId r.requestId
  ⟨r.requestId,
    if 0 ≤ idx then serviceFor opt.service opt.seed idx.toNat else opt.service.serviceMs⟩

end Native

/-! ## Python -/

namespace Python

structure Args extends Bench.Options where
  seed : Int

/-- `(request_id, Future, service_ms_requested)` -/
structure Pending where
  reqId : String
  fut : Nat
  svc : Float

variable (args : Args)

def client : Client Pending where
  request idx := ⟨requestId idx, serviceFor args.service args.seed idx⟩
  entry idx n := ⟨requestId idx, n, serviceFor args.service args.seed idx⟩
  token := Pending.fut
  token_entry _ _ := rfl

/-- `indices[i]` -/
def item (indices : List Nat) (i : Nat) : Nat := indices.getD i 0

def runOneByOne (indices : List Nat) (window : Nat) (hw : 0 < window) (record : Bool) :
    Loop (client args) :=
  fifoLoop (client args) (item indices) 0 indices.length window hw record

def runOneByOneThreaded (indices : List Nat) (record : Bool) (clientThreads : Nat) :
    List (Loop (client args)) :=
  let n := indices.length
  let t := threadCount clientThreads n
  (List.range t).map fun k =>
    runOneByOne args
      ((indices.take (blockStart n t (k + 1))).drop (blockStart n t k))
      (windowOf args.concurrency t k) (windowOf_pos _ _ _) record

def runBatchWait (indices : List Nat) (record : Bool) : Loop (client args) where
  index := item indices
  first := 0
  stop := indices.length
  window := some args.concurrency
  record := record
  retire := retireReady Pending.fut args.waitBatch
  window_pos _ h := some_window args.concurrency_pos h
  retire_length := retireReady_length
  retire_perm := retireReady_perm
  retire_pos hmono _ h := retireReady_pos args.waitBatch_pos hmono h
  retire_some := retireReady_some

/-- `_make_record` -/
def makeRecord (e : Pending) : Row := ⟨e.reqId, e.svc⟩

end Python

/-! ## the blocks of the client threads -/

section
variable {cut : Nat → Nat} {n t k : Nat}

/-- consecutive slices of a list are the list -/
theorem flatMap_cut (l : List Nat) (h0 : cut 0 = 0) (hmono : ∀ k, cut k ≤ cut (k + 1)) (t : Nat) :
    (List.range t).flatMap (fun k => (l.take (cut (k + 1))).drop (cut k)) = l.take (cut t) := by
  induction t with
  | zero => rw [h0]; rfl
  | succ t ih =>
    have htake : (l.take (cut (t + 1))).take (cut t) = l.take (cut t) := by
      rw [List.take_take, Nat.min_eq_left (hmono t)]
    rw [List.range_succ, List.flatMap_append, ih, List.flatMap_singleton, ← htake,
      List.take_append_drop]

theorem blockStart_mono (n t k : Nat) : blockStart n t k ≤ blockStart n t (k + 1) :=
  Nat.div_le_div_right (Nat.mul_le_mul_left n (Nat.le_succ k))

theorem blockStart_zero (n t : Nat) : blockStart n t 0 = 0 := by
  rw [blockStart, Nat.mul_zero, Nat.zero_div]

theorem blockStart_last (ht : 0 < t) : blockStart n t t = n := Nat.mul_div_cancel n ht

theorem blockStart_le (hk : k ≤ t) : blockStart n t k ≤ n :=
  Nat.div_le_of_le_mul (by rw [Nat.mul_comm t]; exact Nat.mul_le_mul_left n hk)

theorem threadCount_pos {clientThreads : Nat} (h : 0 < clientThreads) :
    0 < threadCount clientThreads n :=
  Nat.lt_min.mpr ⟨h, Nat.lt_of_lt_of_le Nat.zero_lt_one (Nat.le_max_left 1 n)⟩

/-- **The blocks are the whole list**, in order. -/
theorem blocks_list (l : List Nat) (ht : 0 < t) :
    (List.range t).flatMap (fun k =>
      (l.take (blockStart l.length t (k + 1))).drop (blockStart l.length t k)) = l := by
  rw [flatMap_cut l (blockStart_zero _ _) (blockStart_mono _ _) t, blockStart_last ht,
    List.take_length]

/-- a slice of a range -/
theorem slice_range {a b : Nat} (hb : b ≤ n) :
    ((List.range n).take b).drop a = List.range' a (b - a) := by
  rw [List.take_range, Nat.min_eq_left hb, List.range_eq_range', List.drop_range', Nat.mul_one,
    Nat.zero_add]

theorem blocks_range (ht : 0 < t) :
    (List.range t).flatMap (fun k =>
      List.range' (blockStart n t k) (blockStart n t (k + 1) - blockStart n t k)) = List.range n := by
  have hlist := blocks_list (List.range n) ht
  rw [List.length_range] at hlist
  rw [← hlist]
  refine List.flatMap_congr fun k hk => ?_
  have hkt := List.mem_range.mp hk
  rw [slice_range (blockStart_le hkt)]

end

/-! ## what a driver owes -/

/-- the request of an index -/
def requestOf (service : Nat → Float) (idx : Nat) : Request := ⟨requestId idx, service idx⟩

/-- the end of a run of `count` requests -/
structure Finished {E : Type} {cl : Client E} (row : E → Row) (service : Nat → Float)
    (lanes count : Nat) (record : Bool) (c : List (Party cl) × World) : Prop where
  ended : ∀ p ∈ c.1, p.phase = .returned
  /-- every index is submitted once -/
  once : (c.2.log.map Submission.idx).Perm (List.range count)
  work : ∀ s ∈ c.2.log, s.request = requestOf service s.idx ∧ s.lane < lanes
  /-- one row for each submission, with its id and the service time that was submitted -/
  rows : record = true → ((c.1.flatMap Party.results).map row).Perm
    (c.2.log.map fun s => ⟨s.request.requestId, s.request.serviceMs⟩)

/-- under every order of completions and every fair schedule of the client threads -/
def Exact {E : Type} {cl : Client E} (row : E → Row) (service : Nat → Float) (lanes count : Nat)
    (record : Bool) (loops : List (Loop cl)) : Prop :=
  ∀ ready : Completion, ready.Fair → ∀ who, Turns.Fair who loops.length → ∀ rr,
    ∃ T, ∀ t, T ≤ t →
      Finished row service lanes count record (stateAt lanes ready who loops rr t)

section
variable {E : Type} {cl : Client E} {row : E → Row} {service : Nat → Float} {lanes count : Nat}
variable {record : Bool} {loops : List (Loop cl)}

theorem entries_map {log : List Submission} {g : Submission → Row}
    (h : ∀ s ∈ log, ∀ n, row (cl.entry s.idx n) = g s) : (entries cl log).map row = log.map g := by
  refine List.ext_getElem? fun n => ?_
  rw [entries, List.getElem?_map, List.getElem?_map, List.getElem?_mapIdx, Option.map_map]
  cases hs : log[n]? with
  | none => rfl
  | some s => exact congrArg some (h s (List.mem_of_getElem? hs) n)

/-- **A driver whose loops cover the range, and whose rows carry what it submits, is exact.** -/
theorem exact_of (hlanes : 0 < lanes) (hreq : ∀ i, cl.request i = requestOf service i)
    (hrow : ∀ i, i < count → ∀ n, row (cl.entry i n) = ⟨requestId i, service i⟩)
    (hrec : ∀ lp ∈ loops, lp.record = record)
    (hcover : loops.flatMap Loop.indices = List.range count) :
    Exact row service lanes count record loops := by
  intro ready hfair who hwho rr
  obtain ⟨T, hT⟩ : ∃ T, ∀ t, T ≤ t → Complete cl lanes (loops.flatMap Loop.indices) record
      (stateAt lanes ready who loops rr t) := loops_complete hfair hrec hwho
  refine ⟨T, fun t ht => ?_⟩
  obtain ⟨hended, honce, hsent, hrecorded⟩ := hT t ht
  rw [hcover] at honce
  have hwork : ∀ s ∈ (stateAt lanes ready who loops rr t).2.log,
      s.request = requestOf service s.idx ∧ s.lane < lanes := by
    intro s hs
    obtain ⟨hr, hl⟩ := hsent s hs
    exact ⟨hr.trans (hreq _), hl hlanes⟩
  refine ⟨hended, honce, hwork, fun hrec => ?_⟩
  refine ((hrecorded hrec).map row).trans (.of_eq ?_)
  refine entries_map fun s hs n => ?_
  have hlt : s.idx < count :=
    List.mem_range.mp (honce.subset (List.mem_map_of_mem hs))
  rw [hrow s.idx hlt n, (hwork s hs).1]
  rfl

end

/-! ## the seven drivers -/

namespace Native
variable (opt : Options) {count : Nat} {record : Bool}

theorem row_entry {i : Nat} (hi : i < 2 ^ 31) (n : Nat) :
    row opt ((client opt).entry i n) = ⟨requestId i, serviceFor opt.service opt.seed i⟩ := by
  show (⟨requestId i, if 0 ≤ idxFromRequestId (requestId i) then
    serviceFor opt.service opt.seed (idxFromRequestId (requestId i)).toNat
    else opt.service.serviceMs⟩ : Row) = _
  rw [idx_requestId hi, if_pos (Int.natCast_nonneg i), Int.toNat_natCast]

/-- the four drivers of the executable -/
inductive Driver where
  | oneByOne
  | batchWait
  | submitAll
  | threaded

def Driver.loops (count : Nat) (record : Bool) : Driver → List (Loop (client opt))
  | .oneByOne => dispatchOneByOne opt count record
  | .batchWait => dispatchBatchWait opt count record
  | .submitAll => dispatchSubmitAll opt count record
  | .threaded => dispatchOneByOneThreaded opt count record

theorem range_indices (count : Nat) : (List.range' 0 (count - 0)).map id = List.range count := by
  rw [List.map_id, List.range_eq_range']
  rfl

theorem cover (d : Driver) :
    (d.loops opt count record).flatMap Loop.indices = List.range count := by
  cases d with
  | oneByOne => exact (List.flatMap_singleton ..).trans (range_indices count)
  | batchWait => exact (List.flatMap_singleton ..).trans (range_indices count)
  | submitAll => exact (List.flatMap_singleton ..).trans (range_indices count)
  | threaded =>
    have ht := threadCount_pos (n := count) opt.clientThreads_pos
    show ((List.range _).map _).flatMap _ = _
    rw [List.flatMap_map, ← blocks_range (n := count) ht]
    refine List.flatMap_congr fun k _ => ?_
    exact List.map_id _

theorem records (d : Driver) : ∀ lp ∈ d.loops opt count record, lp.record = record := by
  intro lp hlp
  cases d with
  | oneByOne => rw [List.mem_singleton.mp hlp]; rfl
  | batchWait => rw [List.mem_singleton.mp hlp]
  | submitAll => rw [List.mem_singleton.mp hlp]
  | threaded =>
    obtain ⟨k, _, rfl⟩ := List.mem_map.mp hlp
    rfl

theorem driver_exact {count : Nat} (hcount : count < 2 ^ 31) (record : Bool) (d : Driver) :
    Exact (row opt) (serviceFor opt.service opt.seed) opt.numLanes count record
      (d.loops opt count record) :=
  exact_of opt.numLanes_pos (fun _ => rfl)
    (fun _ hi n => row_entry opt (Nat.lt_trans hi hcount) n) (records opt d) (cover opt d)

inductive RetireMode where
  | oneByOne
  | batchWait
  | submitAllGetAll

def dispatch (mode : RetireMode) (count : Int) (record : Bool) : List (Loop (client opt)) :=
  if count ≤ 0 then []
  else if 1 < opt.clientThreads then dispatchOneByOneThreaded opt count.toNat record
  else
    match mode with
    | .batchWait => dispatchBatchWait opt count.toNat record
    | .submitAllGetAll => dispatchSubmitAll opt count.toNat record
    | .oneByOne => dispatchOneByOne opt count.toNat record

theorem dispatch_driver (mode : RetireMode) {count : Int} (h : ¬ count ≤ 0) (record : Bool) :
    ∃ d : Driver, dispatch opt mode count record = d.loops opt count.toNat record := by
  unfold dispatch
  rw [if_neg h]
  split
  · exact ⟨.threaded, rfl⟩
  · cases mode with
    | oneByOne => exact ⟨.oneByOne, rfl⟩
    | batchWait => exact ⟨.batchWait, rfl⟩
    | submitAllGetAll => exact ⟨.submitAll, rfl⟩

/-- what `main` dispatches, for every `int` -/
theorem dispatch_exact (mode : RetireMode) {count : Int} (hcount : count < 2 ^ 31) (record : Bool) :
    Exact (row opt) (serviceFor opt.service opt.seed) opt.numLanes count.toNat record
      (dispatch opt mode count record) := by
  by_cases hle : count ≤ 0
  · have hempty : dispatch opt mode count record = [] := if_pos hle
    rw [hempty, Int.toNat_of_nonpos hle]
    exact exact_of opt.numLanes_pos (fun _ => rfl) (fun _ hi => absurd hi (Nat.not_lt_zero _))
      (fun _ hlp => absurd hlp List.not_mem_nil) rfl
  · obtain ⟨d, hd⟩ := dispatch_driver opt mode hle record
    rw [hd]
    exact driver_exact opt (by omega) record d

end Native

namespace Python
variable (args : Args) {count : Nat} {record : Bool}

/-- the three drivers of the frontend, on `list(range(count))` -/
inductive Driver where
  | oneByOne
  | threaded
  | batchWait

def Driver.loops (count : Nat) (record : Bool) : Driver → List (Loop (client args))
  | .oneByOne =>
    [runOneByOne args (List.range count) args.concurrency args.concurrency_pos record]
  | .threaded => runOneByOneThreaded args (List.range count) record args.clientThreads
  | .batchWait => [runBatchWait args (List.range count) record]

theorem item_indices (indices : List Nat) :
    (List.range' 0 (indices.length - 0)).map (item indices) = indices := by
  refine List.ext_getElem (by simp) fun n hn hn' => ?_
  rw [List.getElem_map, List.getElem_range', Nat.zero_add, Nat.one_mul]
  rw [item, List.getD_eq_getElem?_getD, List.getElem?_eq_getElem hn']
  rfl

theorem cover (d : Driver) :
    (d.loops args count record).flatMap Loop.indices = List.range count := by
  cases d with
  | oneByOne => exact (List.flatMap_singleton ..).trans (item_indices _)
  | batchWait => exact (List.flatMap_singleton ..).trans (item_indices _)
  | threaded =>
    have ht := threadCount_pos (n := (List.range count).length) args.clientThreads_pos
    show ((List.range _).map _).flatMap _ = _
    rw [List.flatMap_map]
    refine Eq.trans ?_ (blocks_list (List.range count) ht)
    refine List.flatMap_congr fun k _ => ?_
    exact item_indices _

theorem records (d : Driver) : ∀ lp ∈ d.loops args count record, lp.record = record := by
  intro lp hlp
  cases d with
  | oneByOne => rw [List.mem_singleton.mp hlp]; rfl
  | batchWait => rw [List.mem_singleton.mp hlp]; rfl
  | threaded =>
    obtain ⟨k, _, rfl⟩ := List.mem_map.mp hlp
    rfl

/-- `run.dispatch` for the windowed APIs -/
def dispatch (batchWait : Bool) (indices : List Nat) (record : Bool) : List (Loop (client args)) :=
  if batchWait = true then [runBatchWait args indices record]
  else if args.clientThreads = 1 then
    [runOneByOne args indices args.concurrency args.concurrency_pos record]
  else runOneByOneThreaded args indices record args.clientThreads

theorem dispatch_driver (batchWait : Bool) (count : Nat) (record : Bool) :
    ∃ d : Driver, dispatch args batchWait (List.range count) record = d.loops args count record := by
  unfold dispatch
  split
  · exact ⟨.batchWait, rfl⟩
  · split
    · exact ⟨.oneByOne, rfl⟩
    · exact ⟨.threaded, rfl⟩

theorem driver_exact (count : Nat) (record : Bool) (d : Driver) :
    Exact makeRecord (serviceFor args.service args.seed) args.numLanes count record
      (d.loops args count record) :=
  exact_of args.numLanes_pos (fun _ => rfl) (fun _ _ _ => rfl) (records args d) (cover args d)

theorem dispatch_exact (batchWait : Bool) (count : Nat) (record : Bool) :
    Exact makeRecord (serviceFor args.service args.seed) args.numLanes count record
      (dispatch args batchWait (List.range count) record) := by
  obtain ⟨d, hd⟩ := dispatch_driver args batchWait count record
  rw [hd]
  exact driver_exact args count record d

end Python

/-- **Every driver submits and records each request once, with the same work**: the four C++ drivers
for every `int` count, the three Python drivers for every count; and the draws and the work of the two
languages are one. -/
theorem drivers_exact :
    (∀ (opt : Native.Options) (count : Nat) (record : Bool) (d : Native.Driver), count < 2 ^ 31 →
      Exact (Native.row opt) (Native.serviceFor opt.service opt.seed) opt.numLanes count record
        (d.loops opt count record)) ∧
    (∀ (args : Python.Args) (count : Nat) (record : Bool) (d : Python.Driver),
      Exact Python.makeRecord (Python.serviceFor args.service args.seed) args.numLanes count record
        (d.loops args count record)) ∧
    (∀ (seed : Int64) (idx : Nat), (Native.mix seed idx).toNat = Python.mix seed.toInt idx) ∧
    ∀ (o : ServiceOptions) (seed : Int64) (idx : Nat),
      Native.serviceFor o seed idx = Python.serviceFor o seed.toInt idx := by
  refine ⟨fun opt count record d hcount => ?_, fun args count record d => ?_, mix_eq, serviceFor_eq⟩
  · exact Native.driver_exact opt hcount record d
  · exact Python.driver_exact args count record d

/-- turns in rotation -/
theorem fair_mod (n : Nat) : Turns.Fair (fun t => t % n) n := by
  intro k hk t
  refine ⟨n * t + k, ?_, ?_⟩
  · have := Nat.le_mul_of_pos_left t (Nat.lt_of_le_of_lt (Nat.zero_le k) hk)
    omega
  · show (n * t + k) % n = k
    rw [Nat.mul_add_mod, Nat.mod_eq_of_lt hk]

/-- a window of three for two client threads and two lanes -/
def Native.sample : Native.Options where
  service := { pattern := .bimodal, serviceMs := 5 }
  concurrency := 3
  waitBatch := 1
  numLanes := 2
  clientThreads := 2
  concurrency_pos := by decide
  waitBatch_pos := by decide
  numLanes_pos := by decide
  clientThreads_pos := by decide
  seed := 42

/-- request `a` is ready from time `a` on -/
theorem fair_after : Completion.Fair fun t a => decide (a ≤ t) where
  stays htt h := decide_eq_true (Nat.le_trans (of_decide_eq_true h) htt)
  eventually a := ⟨a, decide_eq_true (Nat.le_refl a)⟩

theorem drivers_exact_five : ∃ T, ∀ t, T ≤ t →
    Finished (Native.row Native.sample) (Native.serviceFor Native.sample.service Native.sample.seed)
      2 5 true (stateAt 2 (fun t a => decide (a ≤ t)) (fun t => t % 2)
        (Native.dispatchOneByOneThreaded Native.sample 5 true) 0 t) :=
  drivers_exact.1 Native.sample 5 true .threaded (by decide) _ fair_after _ (fair_mod 2) 0

end Bench
end RayX
