import RayX.Endpoint.Listener
import RayX.Endpoint.Seam
import RayX.Owner.Owner

/-!
# The life of the endpoints

`_Endpoint` and `endpoint_shutdown` of `_rayx.cpp` over the owner of HPX, the registry of seams and
the transport, one operation after the other.

* `construct`, `close`, `shutdown`   the operations, the constructor with its `catch` block;
* `Moves`                  what an operation does to the endpoints, their count and the registry;
* `tombstones_cleared`     **no tombstone outlives the endpoints as long as no constructor fails in
                           the transport while no endpoint is open**.
-/

namespace RayX
open Sys

/-- `seam_->closed` is stored in the seam that the registry shares -/
def EndpointRegistry.markClosed (r : EndpointRegistry) (id : List UInt8) : EndpointRegistry where
  map := Function.update r.map id ((r.map id).map (fun s => { s with closed := true }))
  tombstones := r.tombstones
  keyed := by
    intro id' s' h
    by_cases hid : id' = id
    · subst hid
      rw [Function.update_self] at h
      obtain ⟨s, hs, rfl⟩ := Option.map_eq_some_iff.mp h
      exact r.keyed id' s hs
    · rw [Function.update_of_ne hid] at h
      exact r.keyed id' s' h

/-- an `_Endpoint` object; its seam is found under its id -/
structure Endpoint where
  id : List UInt8
  transport : Bool
  transportAddr : String := ""
  closed : Bool := false

/-- the objects in the order of their construction, and the singletons they use -/
structure Endpoints where
  owner : Owner := {}
  registry : EndpointRegistry := .empty
  transport : Transport := {}
  objects : List Endpoint := []

namespace Endpoints

/-! ## the operations -/

/-- a call of the owner that takes no part of HPX, by its result -/
def ownerCall (call : OwnerCall) (p : Endpoints) : Except String Ret × Endpoints :=
  let rest := (call.body p.owner).run (.ok true)
  (rest.1, { p with owner := rest.2.1 })

def endpointCount (p : Endpoints) : Int := p.owner.endpoints

/-- the constructor; `mint` is the answer of `make_endpoint_id` -/
def construct (mint : Except String (List UInt8)) (transport : Bool) (env : StartEnv)
    (p : Endpoints) : Except String Endpoint × Endpoints :=
  match p.ownerCall (.attach .endpoint 0) with
  | (.error msg, p) => (.error msg, p)
  | (.ok _, p) =>
    match mint with
    | .error msg => (.error msg, (p.ownerCall (.detach .endpoint)).2)
    | .ok id =>
      let p := { p with registry := p.registry.registerSeam (EndpointSeam.new id) }
      if transport then
        match p.transport.acquire env with
        | (.ok addr, t) =>
          let e : Endpoint := { id := id, transport := true, transportAddr := addr }
          (.ok e, { p with transport := t, objects := p.objects ++ [e] })
        | (.error msg, t) =>
          -- the `catch` block
          let p := { p with transport := t, registry := p.registry.unregister id }
          (.error msg, (p.ownerCall (.detach .endpoint)).2)
      else
        let e : Endpoint := { id := id, transport := false }
        (.ok e, { p with objects := p.objects ++ [e] })

/-- `close()` of object `k` -/
def close (k : Nat) (e : Endpoint) (p : Endpoints) : Endpoints :=
  if e.closed then p
  else
    let p := { p with
      objects := p.objects.set k { e with closed := true }
      registry := (p.registry.markClosed e.id).unregister e.id }
    let p := if e.transport then { p with transport := p.transport.release } else p
    let p := (p.ownerCall (.detach .endpoint)).2
    if p.endpointCount = 0 then { p with registry := p.registry.clearTombstones } else p

def shutdown (p : Endpoints) : Endpoints :=
  if p.endpointCount ≠ 0 then p
  else { p with transport := p.transport.sweep, registry := p.registry.clearTombstones }

inductive Op where
  | construct (mint : Except String (List UInt8)) (transport : Bool) (env : StartEnv)
  | close (k : Nat)
  | shutdown
  | hpxOwner (call : OwnerCall) (hpx : Except String Bool)

/-- the calls of an Engine or a Runtime -/
def ofHpx : OwnerCall → Bool
  | .attach .endpoint _ => false
  | .detach .endpoint => false
  | _ => true

def step (p : Endpoints) : Op → Option Endpoints
  | .construct mint transport env => some (p.construct mint transport env).2
  | .close k => (p.objects[k]?).map (fun e => p.close k e)
  | .shutdown => some p.shutdown
  | .hpxOwner call hpx =>
    if ofHpx call then some { p with owner := ((call.body p.owner).run hpx).2.1 } else none

/-! ## what an operation moves -/

/-- the endpoints, their count and the registry after an operation -/
inductive Moves (p p' : Endpoints) : Op → Prop where
  | built {mint transport env e} (hr : (p.construct mint transport env).1 = .ok e)
    (hm : mint = .ok e.id) (hopen : e.closed = false) (hobj : p'.objects = p.objects ++ [e])
    (hcount : p'.endpointCount = p.endpointCount + 1)
    (hreg : p'.registry = p.registry.registerSeam (EndpointSeam.new e.id)) :
    Moves p p' (.construct mint transport env)
  | failed {id env msg} (hr : (p.construct (.ok id) true env).1 = .error msg)
    (hown : p.owner.engine = false) (hacq : ∃ msg, (p.transport.acquire env).1 = .error msg)
    (hobj : p'.objects = p.objects) (hcount : p'.endpointCount = p.endpointCount)
    (hreg : p'.registry = p.registry.unregister id) : Moves p p' (.construct (.ok id) true env)
  | closes {k e} (hk : p.objects[k]? = some e) (hopen : e.closed = false)
    (hobj : p'.objects = p.objects.set k { e with closed := true })
    (hcount : p'.endpointCount = p.endpointCount - 1)
    (hreg : p'.registry = if p'.endpointCount = 0 then (p.registry.unregister e.id).clearTombstones
      else p.registry.unregister e.id) : Moves p p' (.close k)
  | cleared (hzero : p.endpointCount = 0) (hobj : p'.objects = p.objects)
    (hcount : p'.endpointCount = p.endpointCount)
    (hreg : p'.registry = p.registry.clearTombstones) : Moves p p' .shutdown
  | kept {op} (hfail : ∀ id env, op = .construct (.ok id) true env → p.owner.engine = true)
    (hobj : p'.objects = p.objects) (hcount : p'.endpointCount = p.endpointCount)
    (hreg : p'.registry = p.registry) : Moves p p' op

variable {p p' : Endpoints} {r : EndpointRegistry} {id : List UInt8}

theorem attach_endpoint (p : Endpoints) : p.ownerCall (.attach .endpoint 0) =
    if p.owner.engine = true then (.error (conflictMsg "Endpoint"), p)
    else (.ok .unit, { p with owner := { p.owner with endpoints := p.owner.endpoints + 1 } }) := by
  have hbody : attach .endpoint 0 p.owner =
      if p.owner.engine = true then .leave (.error (conflictMsg "Endpoint")) p.owner
      else .leave (.ok .unit) { p.owner with endpoints := p.owner.endpoints + 1 } := rfl
  have hcall : p.ownerCall (.attach .endpoint 0) =
      (((attach .endpoint 0 p.owner).run (.ok true)).1,
        { p with owner := ((attach .endpoint 0 p.owner).run (.ok true)).2.1 }) := rfl
  rw [hcall, hbody]
  by_cases he : p.owner.engine = true
  · rw [if_pos he, if_pos he]
    rfl
  · rw [if_neg he, if_neg he]
    rfl

theorem detach_endpoint (h : 0 < p.endpointCount) : (p.ownerCall (.detach .endpoint)).2 =
    { p with owner := { p.owner with endpoints := p.owner.endpoints - 1 } } := by
  show { p with owner := ((detach .endpoint p.owner).run (.ok true)).2.1 } = _
  unfold detach
  dsimp only
  rw [if_pos (show 0 < p.owner.endpoints from h)]
  rfl

/-- a registered seam that is unregistered again -/
theorem registerSeam_unregister (r : EndpointRegistry) (s : EndpointSeam) :
    (r.registerSeam s).unregister s.endpointId = r.unregister s.endpointId := by
  unfold EndpointRegistry.unregister EndpointRegistry.registerSeam
  simp only [Function.update_idem]

/-- the flag of a seam that goes -/
theorem markClosed_unregister (r : EndpointRegistry) (id : List UInt8) :
    (r.markClosed id).unregister id = r.unregister id := by
  unfold EndpointRegistry.unregister EndpointRegistry.markClosed
  simp only [Function.update_idem]

section
variable {o : Owner} {k : Owner → Critical} {hpx : Except String Bool} {n : Int}

theorem startHpxLocked_endpoints (threads : Int) (ho : o.endpoints = n)
    (hk : ∀ o', o'.endpoints = n → ((k o').run hpx).2.1.endpoints = n) :
    ((startHpxLocked threads o k).run hpx).2.1.endpoints = n := by
  unfold startHpxLocked
  cases o.started with
  | true => exact hk _ ho
  | false =>
    rcases hpx with what | b
    · exact ho
    · cases b with
      | false => exact ho
      | true => exact hk _ ho

theorem stopHpxLocked_endpoints (ho : o.endpoints = n)
    (hk : ∀ o', o'.endpoints = n → ((k o').run hpx).2.1.endpoints = n) :
    ((stopHpxLocked o k).run hpx).2.1.endpoints = n := by
  unfold stopHpxLocked
  dsimp only
  split
  · split
    · exact hk _ ho
    · exact hk _ ho
  · exact hk _ ho

end

/-- the calls of an Engine or a Runtime leave the endpoints alone -/
theorem ofHpx_endpoints {call : OwnerCall} (h : ofHpx call = true) (o : Owner)
    (hpx : Except String Bool) : ((call.body o).run hpx).2.1.endpoints = o.endpoints := by
  cases call with
  | attach kind n =>
    cases kind with
    | endpoint => cases h
    | engine =>
      show ((if _ then _ else _ : Critical).run hpx).2.1.endpoints = _
      split
      · rfl
      · exact startHpxLocked_endpoints n rfl (fun _ ho => ho)
    | runtime =>
      show ((if _ then _ else _ : Critical).run hpx).2.1.endpoints = _
      split
      · rfl
      · exact startHpxLocked_endpoints n rfl (fun _ ho => ho)
  | detach kind =>
    cases kind with
    | endpoint => cases h
    | engine =>
      show ((if _ then _ else _ : Critical).run hpx).2.1.endpoints = _
      split
      · exact stopHpxLocked_endpoints rfl (fun _ ho => ho)
      · rfl
    | runtime =>
      show ((if _ then _ else _ : Critical).run hpx).2.1.endpoints = _
      split
      · exact stopHpxLocked_endpoints rfl (fun _ ho => ho)
      · rfl
  | hpxActive => rfl
  | endpointCount => rfl

theorem construct_moves (mint : Except String (List UInt8)) (transport : Bool) (env : StartEnv)
    (h0 : 0 ≤ p.endpointCount) :
    Moves p (p.construct mint transport env).2 (.construct mint transport env) := by
  by_cases he : p.owner.engine = true
  · have hc : p.construct mint transport env = (.error (conflictMsg "Endpoint"), p) := by
      rw [construct, attach_endpoint, if_pos he]
    rw [hc]
    exact .kept (fun _ _ _ => he) rfl rfl rfl
  · have hatt := attach_endpoint p
    rw [if_neg he] at hatt
    have hback : ∀ q : Endpoints, q.endpointCount = p.endpointCount + 1 →
        (q.ownerCall (.detach .endpoint)).2 =
          { q with owner := { q.owner with endpoints := q.owner.endpoints - 1 } } :=
      fun q hq => detach_endpoint (by omega)
    cases mint with
    | error msg =>
      rw [construct, hatt]
      dsimp only
      rw [hback _ rfl]
      refine .kept (fun _ _ h => nomatch h) rfl ?_ rfl
      show p.owner.endpoints + 1 - 1 = p.owner.endpoints
      omega
    | ok id =>
      cases transport with
      | false =>
        have hc : p.construct (.ok id) false env = (.ok { id := id, transport := false }, { p with
            owner := { p.owner with endpoints := p.owner.endpoints + 1 }
            registry := p.registry.registerSeam (EndpointSeam.new id)
            objects := p.objects ++ [{ id := id, transport := false }] }) := by
          rw [construct, hatt]
          rfl
        exact .built (by rw [hc]) rfl rfl (by rw [hc]) (by rw [hc]; rfl) (by rw [hc])
      | true =>
        cases ha : p.transport.acquire env with
        | mk r t =>
          cases r with
          | ok addr =>
            have hc : p.construct (.ok id) true env =
                (.ok { id := id, transport := true, transportAddr := addr }, { p with
                  owner := { p.owner with endpoints := p.owner.endpoints + 1 }
                  registry := p.registry.registerSeam (EndpointSeam.new id)
                  transport := t
                  objects := p.objects ++
                    [{ id := id, transport := true, transportAddr := addr }] }) := by
              rw [construct, hatt]
              dsimp only
              rw [if_pos rfl, ha]
            exact .built (by rw [hc]) rfl rfl (by rw [hc]) (by rw [hc]; rfl) (by rw [hc])
          | error msg =>
            have hc : p.construct (.ok id) true env = (.error msg, { p with
                owner := { p.owner with endpoints := p.owner.endpoints + 1 - 1 }
                registry := p.registry.unregister id
                transport := t }) := by
              rw [construct, hatt]
              dsimp only
              rw [if_pos rfl, ha]
              dsimp only
              rw [hback _ rfl]
              have hreg := registerSeam_unregister p.registry (EndpointSeam.new id)
              rw [show (EndpointSeam.new id).endpointId = id from rfl] at hreg
              rw [hreg]
            refine .failed (by rw [hc]) ((Bool.not_eq_true _).mp he) ⟨msg, by rw [ha]⟩
              (by rw [hc]) ?_ (by rw [hc])
            rw [hc]
            show p.owner.endpoints + 1 - 1 = p.owner.endpoints
            omega

theorem close_moves {k : Nat} {e : Endpoint} (hk : p.objects[k]? = some e)
    (hpos : e.closed = false → 0 < p.endpointCount) : Moves p (p.close k e) (.close k) := by
  unfold close
  by_cases hcl : e.closed = true
  · rw [if_pos hcl]
    exact .kept (fun _ _ h => nomatch h) rfl rfl rfl
  · rw [if_neg hcl, markClosed_unregister]
    have hopen := (Bool.not_eq_true _).mp hcl
    have hp := hpos hopen
    dsimp only
    generalize hq : (if e.transport = true then _ else _ : Endpoints) = q
    have hqc : q.owner = p.owner ∧ q.registry = p.registry.unregister e.id ∧
        q.objects = p.objects.set k { e with closed := true } := by
      rw [← hq]
      split
      · exact ⟨rfl, rfl, rfl⟩
      · exact ⟨rfl, rfl, rfl⟩
    have hcount : q.endpointCount = p.endpointCount := congrArg Owner.endpoints hqc.1
    rw [detach_endpoint (by omega)]
    generalize hd : ({ q with owner := _ } : Endpoints) = d
    have hdc : d.endpointCount = p.endpointCount - 1 := by
      rw [← hd, ← hcount]
      rfl
    have hdr : d.registry = p.registry.unregister e.id := by
      rw [← hd]
      exact hqc.2.1
    have hdo : d.objects = p.objects.set k { e with closed := true } := by
      rw [← hd]
      exact hqc.2.2
    by_cases hz : d.endpointCount = 0
    · rw [if_pos hz]
      refine .closes hk hopen hdo hdc ?_
      exact (congrArg EndpointRegistry.clearTombstones hdr).trans (if_pos hz).symm
    · rw [if_neg hz]
      refine .closes hk hopen hdo hdc ?_
      rw [if_neg hz]
      exact hdr

/-- **Every operation is one of the moves.**  The count covers the open endpoints. -/
theorem step_moves (h0 : 0 ≤ p.endpointCount)
    (hpos : ∀ e ∈ p.objects, e.closed = false → 0 < p.endpointCount) {op : Op}
    (hs : p.step op = some p') : Moves p p' op := by
  cases op with
  | construct mint transport env =>
    cases hs
    exact construct_moves mint transport env h0
  | close k =>
    obtain ⟨e, hk, rfl⟩ := Option.map_eq_some_iff.mp hs
    exact close_moves hk (hpos e (List.mem_of_getElem? hk))
  | shutdown =>
    cases hs
    unfold shutdown
    by_cases hz : p.endpointCount = 0
    · rw [if_neg (not_not.mpr hz)]
      exact .cleared hz rfl rfl rfl
    · rw [if_pos hz]
      exact .kept (fun _ _ h => nomatch h) rfl rfl rfl
  | hpxOwner call hpx =>
    simp only [step, Option.ite_none_right_eq_some, Option.some.injEq] at hs
    obtain ⟨hf, rfl⟩ := hs
    exact .kept (fun _ _ h => nomatch h) rfl (ofHpx_endpoints hf p.owner hpx) rfl

/-! ## the books -/

def openCount (p : Endpoints) : Nat := p.objects.countP (fun e => !e.closed)

/-- the count of the owner is the number of open endpoints, and a seam in the registry belongs to one
of them -/
structure Books (p : Endpoints) : Prop where
  count : p.endpointCount = p.openCount
  mapped : ∀ id s, p.registry.map id = some s → ∃ e ∈ p.objects, e.id = id ∧ e.closed = false

theorem Books.pos (h : p.Books) {e : Endpoint} (he : e ∈ p.objects) (hopen : e.closed = false) :
    0 < p.endpointCount := by
  have : 0 < p.openCount := List.countP_pos_iff.mpr ⟨e, he, by rw [hopen]; rfl⟩
  have hc := h.count
  omega

theorem Books.nonneg (h : p.Books) : 0 ≤ p.endpointCount := by
  have hc := h.count
  omega

theorem Books.moves (h : p.Books) {op : Op} (hs : p.step op = some p') : Moves p p' op :=
  step_moves h.nonneg (fun _ he hopen => h.pos he hopen) hs

section
variable {l : List Endpoint} {k : Nat} {e e' x : Endpoint}

/-- an object that is not the one replaced stays -/
theorem mem_set_other (hk : l[k]? = some e) (hx : x ∈ l) (hne : x ≠ e) : x ∈ l.set k e' := by
  obtain ⟨j, hj⟩ := List.mem_iff_getElem?.mp hx
  refine List.mem_iff_getElem?.mpr ⟨j, ?_⟩
  rw [List.getElem?_set_ne, hj]
  rintro rfl
  rw [hj] at hk
  exact hne (Option.some.inj hk)

theorem mem_set_self (hk : l[k]? = some e) : e' ∈ l.set k e' :=
  List.mem_set (List.getElem?_eq_some_iff.mp hk).1 e'

theorem openCount_set (hk : l[k]? = some e) (hopen : e.closed = false) :
    (l.set k { e with closed := true }).countP (fun e => !e.closed) + 1
      = l.countP (fun e => !e.closed) := by
  obtain ⟨hlt, hget⟩ := List.getElem?_eq_some_iff.mp hk
  have hpos : 0 < l.countP (fun e => !e.closed) :=
    List.countP_pos_iff.mpr ⟨e, List.mem_of_getElem? hk, by rw [hopen]; rfl⟩
  rw [List.countP_set hlt, hget, hopen]
  simp only [Bool.not_false, Bool.not_true, Bool.false_eq_true, if_true, if_false]
  omega

end

theorem Books.step (h : p.Books) {op : Op} (hs : p.step op = some p') : p'.Books := by
  cases h.moves hs with
  | @built mint transport env e hr hm hopen hobj hcount hreg =>
    constructor
    · rw [hcount, h.count, openCount, openCount, hobj, List.countP_append, List.countP_singleton,
        hopen]
      rfl
    · intro id s hmap
      rw [hreg] at hmap
      rw [hobj]
      by_cases hid : id = e.id
      · exact ⟨e, List.mem_append_right _ (List.mem_singleton_self e), hid.symm, hopen⟩
      · have hmap' : p.registry.map id = some s := by
          rw [← hmap]
          exact (Function.update_of_ne hid _ _).symm
        obtain ⟨x, hx, hxid, hxo⟩ := h.mapped id s hmap'
        exact ⟨x, List.mem_append_left _ hx, hxid, hxo⟩
  | @failed id env msg hr hown hacq hobj hcount hreg =>
    constructor
    · rw [hcount, openCount, hobj]
      exact h.count
    · intro id' s hmap
      rw [hobj]
      have hmap' : Function.update p.registry.map id none id' = some s := by
        rw [hreg] at hmap
        exact hmap
      have hid : id' ≠ id := by
        rintro rfl
        rw [Function.update_self] at hmap'
        cases hmap'
      rw [Function.update_of_ne hid] at hmap'
      exact h.mapped id' s hmap'
  | @closes k e hk hopen hobj hcount hreg =>
    constructor
    · have hset := openCount_set hk hopen
      have hc := h.count
      rw [hcount, openCount, hobj]
      unfold openCount at hc
      omega
    · intro id s hmap
      have hmap' : Function.update p.registry.map e.id none id = some s := by
        rw [hreg] at hmap
        split at hmap
        · exact hmap
        · exact hmap
      have hid : id ≠ e.id := by
        rintro rfl
        rw [Function.update_self] at hmap'
        cases hmap'
      rw [Function.update_of_ne hid] at hmap'
      obtain ⟨x, hx, hxid, hxo⟩ := h.mapped id s hmap'
      refine ⟨x, ?_, hxid, hxo⟩
      rw [hobj]
      exact mem_set_other hk hx (by rintro rfl; exact hid hxid.symm)
  | cleared hzero hobj hcount hreg =>
    constructor
    · rw [hcount, openCount, hobj]
      exact h.count
    · intro id s hmap
      rw [hobj]
      rw [hreg] at hmap
      exact h.mapped id s hmap
  | kept hfail hobj hcount hreg =>
    constructor
    · rw [hcount, openCount, hobj]
      exact h.count
    · intro id s hmap
      rw [hobj]
      rw [hreg] at hmap
      exact h.mapped id s hmap

theorem books_init : Books {} where
  count := rfl
  mapped := by
    intro id s h
    cases h

/-! ## tombstones -/

/-- without endpoints the registry is empty -/
def Clean (p : Endpoints) : Prop :=
  p.endpointCount = 0 → ∀ id, p.registry.map id = none ∧ p.registry.tombstones id = false

/-- a construction that the transport fails while no endpoint is open -/
def FailsAlone (p : Endpoints) : Op → Prop
  | .construct (.ok _) true env => p.owner.engine = false ∧
      (∃ msg, (p.transport.acquire env).1 = .error msg) ∧ p.endpointCount = 0
  | _ => False

theorem Books.empty (h : p.Books) (hz : p.endpointCount = 0) (id : List UInt8) :
    p.registry.map id = none := by
  cases hm : p.registry.map id with
  | none => rfl
  | some s =>
    obtain ⟨e, he, _, hopen⟩ := h.mapped id s hm
    have := h.pos he hopen
    omega

/-- what the transport fails, the constructor throws on -/
theorem construct_error {env : StartEnv} {msg : String} (he : p.owner.engine = false)
    (ha : (p.transport.acquire env).1 = .error msg) :
    (p.construct (.ok id) true env).1 = .error msg := by
  have hatt := attach_endpoint p
  rw [if_neg (by rw [he]; exact Bool.false_ne_true)] at hatt
  cases hacq : p.transport.acquire env with
  | mk res t =>
    rw [hacq] at ha
    cases ha
    rw [construct, hatt]
    dsimp only
    rw [if_pos rfl, hacq]

/-- the books are right and a tombstone has an open endpoint beside it -/
def Tidy (p : Endpoints) : Prop :=
  p.Books ∧ (p.endpointCount = 0 → ∀ id, p.registry.tombstones id = false)

theorem Tidy.step (h : p.Tidy) {op : Op} (hs : p.step op = some p') (hc : Clean p') : p'.Tidy :=
  ⟨h.1.step hs, fun hz id => (hc hz id).2⟩

/-- the transport fails and the id stays behind -/
theorem Books.failed (h : p.Books) {env : StartEnv} {msg : String} (he : p.owner.engine = false)
    (ha : (p.transport.acquire env).1 = .error msg)
    (hs : p.step (.construct (.ok id) true env) = some p') :
    p'.endpointCount = p.endpointCount ∧ p'.registry.tombstones id = true := by
  cases h.moves hs with
  | built hr =>
    rw [construct_error he ha] at hr
    cases hr
  | failed _ _ _ _ hcount hreg =>
    refine ⟨hcount, ?_⟩
    rw [hreg]
    show Function.update p.registry.tombstones id true id = true
    rw [Function.update_self]
  | kept hfail =>
    rw [hfail id env rfl] at he
    cases he

/-- **An operation leaves a clean registry unless it is a construction that fails alone.** -/
theorem clean_iff (h : p.Tidy) (op : Op) :
    (∀ p', p.step op = some p' → Clean p') ↔ ¬ FailsAlone p op := by
  constructor
  · intro hclean hf
    unfold FailsAlone at hf
    split at hf
    · rename_i id env
      obtain ⟨he, ⟨msg, ha⟩, hz⟩ := hf
      obtain ⟨hcount, ht⟩ := h.1.failed he ha rfl
      rw [(hclean _ rfl (hcount.trans hz) id).2] at ht
      cases ht
    · exact hf
  · intro hf p' hs hz id
    refine ⟨(h.1.step hs).empty hz id, ?_⟩
    cases h.1.moves hs with
    | built _ _ _ _ hcount =>
      have := h.1.nonneg
      omega
    | failed _ hown hacq _ hcount =>
      exact absurd ⟨hown, hacq, hcount.symm.trans hz⟩ hf
    | closes _ _ _ _ hreg =>
      rw [hreg, if_pos hz]
      rfl
    | cleared _ _ _ hreg =>
      rw [hreg]
      rfl
    | kept _ _ hcount hreg =>
      rw [hreg]
      exact h.2 (hcount.symm.trans hz) id

theorem tidy_init : Tidy {} := ⟨books_init, fun _ _ => rfl⟩

/-- **Tombstones.**  Over any operations, every one leaves an empty registry behind the last
endpoint if and only if none is a construction that fails in the transport alone. -/
theorem tombstones_cleared (ops : List Op) :
    stepsMeet step (fun p op => ∀ p', p.step op = some p' → Clean p') {} ops ↔
      stepsMeet step (fun p op => ¬ FailsAlone p op) {} ops :=
  stepsMeet_iff (I := Tidy) (fun _ op h => clean_iff h op)
    (fun _ _ _ h hc hs => h.step hs (hc _ hs)) tidy_init ops

/-- the process has no descriptor left for the socket of the listener -/
def noSocketEnv : StartEnv :=
  { Transport.spawnEnv none with socket := some 24 }

/-- the first endpoint fails in the transport and its id stays behind -/
theorem tombstone_left : ¬ ∀ ops, stepsMeet step (fun p op => ∀ p', p.step op = some p' → Clean p')
    {} ops := by
  intro hall
  obtain ⟨hclean, _⟩ := hall [.construct (.ok [0x61]) true noSocketEnv]
  have h := (hclean _ rfl rfl [0x61]).2
  cases h

end Endpoints

end RayX
