import RayX.Endpoint.Lifecycle

/-!
# The lookup against the history of the endpoints

The registry answers from a map, a set of tombstones and a flag for each seam, the owner counts.  The
answer is about the whole life of the process.

* `Covered`          some endpoint was open at every moment since the one of that id was created;
* `History`          the state against the operations so far, one lemma for each kind of operation;
* `lookup_history`   **a lookup is `live` for the open endpoints, `closed` for the closed ones that
                     are covered, and `absent` else**.
-/

namespace RayX
open Sys

namespace Endpoints

variable {p p' : Endpoints} {id : List UInt8}


/-- the endpoint of that id was created -/
def Created (p : Endpoints) (id : List UInt8) : Prop := ∃ e ∈ p.objects, e.id = id

def IsOpen (p : Endpoints) (id : List UInt8) : Prop := ∃ e ∈ p.objects, e.id = id ∧ e.closed = false

def IsClosed (p : Endpoints) (id : List UInt8) : Prop := ∃ e ∈ p.objects, e.id = id ∧ e.closed = true

/-- some endpoint was open at every moment since the one of that id was created -/
def Covered (ops : List Op) (id : List UInt8) : Prop :=
  ∀ pre m, pre <+: ops → run step {} pre = some m → Created m id →
    ∃ e ∈ m.objects, e.closed = false

/-- a construction succeeds, with an id of its own -/
def Fresh (p : Endpoints) : Op → Prop
  | .construct mint transport env => ∃ e, (p.construct mint transport env).1 = .ok e ∧
      ¬ p.Created e.id
  | _ => True

/-- where no two endpoints share an id, closing one leaves the ones of the other ids -/
theorem mem_set_iff {l : List Endpoint} {k : Nat} {e e' x : Endpoint}
    (hids : (l.map (fun e => e.id)).Nodup) (hk : l[k]? = some e) (hid : e'.id = e.id) :
    x ∈ l.set k e' ↔ x = e' ∨ x ∈ l ∧ x.id ≠ e.id := by
  have hlt := (List.getElem?_eq_some_iff.mp hk).1
  constructor
  · intro hx
    obtain ⟨j, hj⟩ := List.mem_iff_getElem?.mp hx
    by_cases hjk : k = j
    · subst hjk
      rw [List.getElem?_set_self hlt] at hj
      exact Or.inl (Option.some.inj hj).symm
    · rw [List.getElem?_set_ne hjk] at hj
      refine Or.inr ⟨List.mem_of_getElem? hj, ?_⟩
      intro heq
      have hj' : (l.map (fun e => e.id))[j]? = some x.id := by
        rw [List.getElem?_map, hj]
        rfl
      have hk' : (l.map (fun e => e.id))[k]? = some x.id := by
        rw [List.getElem?_map, hk, heq]
        rfl
      have hltm : k < (l.map (fun e => e.id)).length := by
        rw [List.length_map]
        exact hlt
      exact hjk ((List.getElem?_inj hltm hids).mp (hk'.trans hj'.symm))
  · rintro (rfl | ⟨hx, hne⟩)
    · exact mem_set_self hk
    · exact mem_set_other hk hx (by rintro rfl; exact hne rfl)

/-- the state against the operations so far -/
structure History (ops : List Op) (p : Endpoints) : Prop where
  books : p.Books
  ids : (p.objects.map (fun e => e.id)).Nodup
  live : ∀ e ∈ p.objects, e.closed = false → ∃ s, p.registry.map e.id = some s
  unmarked : ∀ id s, p.registry.map id = some s → s.closed = false
  tombs : ∀ id, p.registry.tombstones id = true ↔ p.IsClosed id ∧ Covered ops id
  cover : ∀ id, p.IsOpen id → Covered ops id

theorem created_iff : p.Created id ↔ p.IsOpen id ∨ p.IsClosed id := by
  constructor
  · rintro ⟨e, he, hid⟩
    cases hc : e.closed with
    | false => exact Or.inl ⟨e, he, hid, hc⟩
    | true => exact Or.inr ⟨e, he, hid, hc⟩
  · rintro (⟨e, he, hid, _⟩ | ⟨e, he, hid, _⟩)
    · exact ⟨e, he, hid⟩
    · exact ⟨e, he, hid⟩

/-- an endpoint stays created -/
theorem created_step (h : p.Created id) (hb : p.Books) {op : Op} (hs : p.step op = some p') :
    p'.Created id := by
  obtain ⟨x, hx, hid⟩ := h
  cases hb.moves hs with
  | built _ _ _ hobj =>
    exact ⟨x, by rw [hobj]; exact List.mem_append_left _ hx, hid⟩
  | @closes k e hk _ hobj =>
    by_cases hxe : x = e
    · refine ⟨{ e with closed := true }, ?_, by rw [← hid, hxe]⟩
      rw [hobj]
      exact mem_set_self hk
    · exact ⟨x, by rw [hobj]; exact mem_set_other hk hx hxe, hid⟩
  | failed _ _ _ hobj => exact ⟨x, by rw [hobj]; exact hx, hid⟩
  | cleared _ hobj => exact ⟨x, by rw [hobj]; exact hx, hid⟩
  | kept _ hobj => exact ⟨x, by rw [hobj]; exact hx, hid⟩

theorem created_run {ops : List Op} (h : p.Created id) (hb : p.Books)
    (hr : run step p ops = some p') : p'.Created id :=
  (run_inv (P := fun p => p.Books ∧ p.Created id) (fun _ _ _ h hs => ⟨h.1.step hs, created_step h.2 h.1 hs⟩)
    hr ⟨hb, h⟩).2

theorem Books.open_iff (h : p.Books) : (∃ e ∈ p.objects, e.closed = false) ↔ 0 < p.endpointCount := by
  constructor
  · rintro ⟨e, he, hopen⟩
    exact h.pos he hopen
  · intro hpos
    have hc := h.count
    obtain ⟨e, he, hopen⟩ := List.countP_pos_iff.mp (show 0 < p.openCount by omega)
    exact ⟨e, he, by simpa using hopen⟩

/-- one moment more -/
theorem covered_snoc {ops : List Op} {op : Op} (hr : run step {} ops = some p) (hb : p'.Books)
    (hs : p.step op = some p') :
    Covered (ops ++ [op]) id ↔ Covered ops id ∧ (p'.Created id → 0 < p'.endpointCount) := by
  have hr' : run step {} (ops ++ [op]) = some p' :=
    run_append.mpr ⟨p, hr, run_cons.mpr ⟨p', hs, rfl⟩⟩
  constructor
  · intro h
    refine ⟨fun pre m hpre => h pre m (hpre.trans (List.prefix_append ops [op])), ?_⟩
    intro hc
    exact hb.open_iff.mp (h _ p' (List.prefix_refl _) hr' hc)
  · rintro ⟨hold, hnew⟩ pre m hpre hm hc
    rcases List.prefix_concat_iff.mp hpre with rfl | hpre
    · rw [hr'] at hm
      cases hm
      exact hb.open_iff.mpr (hnew hc)
    · exact hold pre m hpre hm hc

/-- while an endpoint is open no moment is lost -/
theorem covered_snoc_pos {ops : List Op} {op : Op} (hr : run step {} ops = some p) (hb : p'.Books)
    (hs : p.step op = some p') (hpos : 0 < p'.endpointCount) :
    Covered (ops ++ [op]) id ↔ Covered ops id := by
  rw [covered_snoc hr hb hs]
  exact and_iff_left (fun _ => hpos)

/-- what is not created was never created -/
theorem covered_of_not_created {ops : List Op} (hr : run step {} ops = some p)
    (hn : ¬ p.Created id) : Covered ops id := by
  rintro pre m ⟨rest, rfl⟩ hm hc
  obtain ⟨m', hm', hrest⟩ := run_append.mp hr
  rw [hm] at hm'
  cases hm'
  have hb : m.Books := run_inv (P := Books) (fun _ _ _ h hs => h.step hs) hm books_init
  exact absurd (created_run hc hb hrest) hn

/-- how a closed endpoint appears -/
theorem History.closes {ops : List Op} {op : Op} {k : Nat} {e : Endpoint} (h : History ops p)
    (hr : run step {} ops = some p) (hs : p.step op = some p') (hk : p.objects[k]? = some e)
    (hopen : e.closed = false) (hobj : p'.objects = p.objects.set k { e with closed := true })
    (hreg : p'.registry = if p'.endpointCount = 0 then (p.registry.unregister e.id).clearTombstones
      else p.registry.unregister e.id) : History (ops ++ [op]) p' := by
  have hb := h.books.step hs
  have hmem : ∀ x, x ∈ p'.objects ↔ x = { e with closed := true } ∨ x ∈ p.objects ∧ x.id ≠ e.id := by
    intro x
    rw [hobj]
    exact mem_set_iff h.ids hk rfl
  have hmap : p'.registry.map = Function.update p.registry.map e.id none := by
    rw [hreg]
    split
    · rfl
    · rfl
  have he : e ∈ p.objects := List.mem_of_getElem? hk
  refine ⟨hb, ?_, ?_, ?_, ?_, ?_⟩
  · have hsame : p'.objects.map (fun e => e.id) = p.objects.map (fun e => e.id) := by
      obtain ⟨hlt, hget⟩ := List.getElem?_eq_some_iff.mp hk
      rw [hobj, List.map_set, ← hget, ← List.getElem_map (fun e : Endpoint => e.id),
        List.set_getElem_self]
      rw [List.length_map]
      exact hlt
    rw [hsame]
    exact h.ids
  · intro x hx hxo
    rcases (hmem x).mp hx with rfl | ⟨hx, hne⟩
    · cases hxo
    · rw [hmap, Function.update_of_ne hne]
      exact h.live x hx hxo
  · intro id s hs
    rw [hmap] at hs
    by_cases hid : id = e.id
    · rw [hid, Function.update_self] at hs
      cases hs
    · rw [Function.update_of_ne hid] at hs
      exact h.unmarked id s hs
  · intro id
    by_cases hz : p'.endpointCount = 0
    · rw [hreg, if_pos hz]
      refine ⟨fun hf => (nomatch hf), ?_⟩
      rintro ⟨hcl, hcov⟩
      have := ((covered_snoc hr hb hs).mp hcov).2 (created_iff.mpr (Or.inr hcl))
      omega
    · have hpos : 0 < p'.endpointCount := by
        have := hb.nonneg
        omega
      rw [hreg, if_neg hz, covered_snoc_pos hr hb hs hpos]
      show Function.update p.registry.tombstones e.id true id = true ↔ _
      by_cases hid : id = e.id
      · subst hid
        rw [Function.update_self]
        refine ⟨fun _ => ⟨⟨_, (hmem _).mpr (Or.inl rfl), rfl, rfl⟩, ?_⟩, fun _ => rfl⟩
        exact h.cover e.id ⟨e, he, rfl, hopen⟩
      · rw [Function.update_of_ne hid, h.tombs id]
        refine and_congr_left' ⟨?_, ?_⟩
        · rintro ⟨x, hx, hxid, hxc⟩
          exact ⟨x, (hmem x).mpr (Or.inr ⟨hx, by rw [hxid]; exact hid⟩), hxid, hxc⟩
        · rintro ⟨x, hx, hxid, hxc⟩
          rcases (hmem x).mp hx with rfl | ⟨hx, _⟩
          · exact absurd hxid.symm hid
          · exact ⟨x, hx, hxid, hxc⟩
  · rintro id ⟨x, hx, hxid, hxo⟩
    have hpos : 0 < p'.endpointCount := hb.pos hx hxo
    rw [covered_snoc_pos hr hb hs hpos]
    rcases (hmem x).mp hx with rfl | ⟨hx, _⟩
    · cases hxo
    · exact h.cover id ⟨x, hx, hxid, hxo⟩

/-- how a new endpoint appears -/
theorem History.built {ops : List Op} {op : Op} {e : Endpoint} (h : History ops p)
    (hr : run step {} ops = some p) (hs : p.step op = some p') (hopen : e.closed = false)
    (hnew : ¬ p.Created e.id) (hobj : p'.objects = p.objects ++ [e])
    (hreg : p'.registry = p.registry.registerSeam (EndpointSeam.new e.id)) :
    History (ops ++ [op]) p' := by
  have hb := h.books.step hs
  have hmem : ∀ x, x ∈ p'.objects ↔ x ∈ p.objects ∨ x = e := by
    intro x
    rw [hobj, List.mem_append, List.mem_singleton]
  have hmap : p'.registry.map = Function.update p.registry.map e.id (some (EndpointSeam.new e.id)) := by
    rw [hreg]
    rfl
  have hother : ∀ x ∈ p.objects, x.id ≠ e.id := fun x hx hid => hnew ⟨x, hx, hid⟩
  have hpos : 0 < p'.endpointCount := hb.pos ((hmem e).mpr (Or.inr rfl)) hopen
  refine ⟨hb, ?_, ?_, ?_, ?_, ?_⟩
  · rw [hobj, List.map_append, List.nodup_append]
    refine ⟨h.ids, List.nodup_singleton _, ?_⟩
    intro a ha b hb'
    obtain ⟨x, hx, rfl⟩ := List.mem_map.mp ha
    rw [List.map_singleton, List.mem_singleton] at hb'
    rw [hb']
    exact hother x hx
  · intro x hx hxo
    rw [hmap]
    rcases (hmem x).mp hx with hx | rfl
    · rw [Function.update_of_ne (hother x hx)]
      exact h.live x hx hxo
    · exact ⟨_, Function.update_self _ _ _⟩
  · intro id s hs
    rw [hmap] at hs
    by_cases hid : id = e.id
    · rw [hid, Function.update_self] at hs
      cases hs
      rfl
    · rw [Function.update_of_ne hid] at hs
      exact h.unmarked id s hs
  · intro id
    rw [covered_snoc_pos hr hb hs hpos, hreg]
    show Function.update p.registry.tombstones e.id false id = true ↔ _
    by_cases hid : id = e.id
    · subst hid
      rw [Function.update_self]
      refine ⟨fun hf => (nomatch hf), ?_⟩
      rintro ⟨⟨x, hx, hxid, hxc⟩, _⟩
      rcases (hmem x).mp hx with hx | rfl
      · exact absurd hxid (hother x hx)
      · rw [hopen] at hxc
        cases hxc
    · rw [Function.update_of_ne hid, h.tombs id]
      refine and_congr_left' ⟨?_, ?_⟩
      · rintro ⟨x, hx, hxid, hxc⟩
        exact ⟨x, (hmem x).mpr (Or.inl hx), hxid, hxc⟩
      · rintro ⟨x, hx, hxid, hxc⟩
        rcases (hmem x).mp hx with hx | rfl
        · exact ⟨x, hx, hxid, hxc⟩
        · exact absurd hxid.symm hid
  · rintro id ⟨x, hx, hxid, hxo⟩
    rw [covered_snoc_pos hr hb hs hpos]
    rcases (hmem x).mp hx with hx | rfl
    · exact h.cover id ⟨x, hx, hxid, hxo⟩
    · rw [← hxid]
      exact covered_of_not_created hr hnew

/-- how nothing appears: the endpoints stay, and so do the tombstones unless there is no endpoint -/
theorem History.same {ops : List Op} {op : Op} (h : History ops p)
    (hr : run step {} ops = some p) (hs : p.step op = some p') (hobj : p'.objects = p.objects)
    (hcount : p'.endpointCount = p.endpointCount) (hmap : p'.registry.map = p.registry.map)
    (htomb : p'.registry.tombstones = p.registry.tombstones ∨
      p.endpointCount = 0 ∧ p'.registry.tombstones = fun _ => false) :
    History (ops ++ [op]) p' := by
  have hb := h.books.step hs
  have hcl : ∀ id, p'.IsClosed id ↔ p.IsClosed id := by
    intro id
    unfold IsClosed
    rw [hobj]
  have hcov : ∀ id, p.Created id → (Covered (ops ++ [op]) id ↔ Covered ops id) := by
    intro id hc
    rw [covered_snoc hr hb hs]
    refine and_iff_left_of_imp ?_
    intro hold _
    rw [hcount]
    exact h.books.open_iff.mp (hold ops p (List.prefix_refl _) hr hc)
  refine ⟨hb, ?_, ?_, ?_, ?_, ?_⟩
  · rw [hobj]
    exact h.ids
  · rw [hobj, hmap]
    exact h.live
  · rw [hmap]
    exact h.unmarked
  · intro id
    have hiff : p'.IsClosed id ∧ Covered (ops ++ [op]) id ↔ p.IsClosed id ∧ Covered ops id := by
      rw [hcl]
      exact and_congr_right (fun h => hcov id (created_iff.mpr (Or.inr h)))
    rw [hiff]
    rcases htomb with ht | ⟨hz, ht⟩
    · rw [ht]
      exact h.tombs id
    · rw [ht]
      refine ⟨fun hf => (nomatch hf), ?_⟩
      rintro ⟨hc, hcovd⟩
      have := h.books.open_iff.mp (hcovd ops p (List.prefix_refl _) hr (created_iff.mpr (Or.inr hc)))
      omega
  · rintro id ⟨x, hx, hxid, hxo⟩
    rw [hobj] at hx
    exact (hcov id ⟨x, hx, hxid⟩).mpr (h.cover id ⟨x, hx, hxid, hxo⟩)

theorem History.step {ops : List Op} {op : Op} (h : History ops p)
    (hr : run step {} ops = some p) (hf : Fresh p op) (hs : p.step op = some p') :
    History (ops ++ [op]) p' := by
  cases h.books.moves hs with
  | built hok hm hopen hobj hcount hreg =>
    obtain ⟨e', hok', hnew⟩ := hf
    rw [hok] at hok'
    cases hok'
    exact h.built hr hs hopen hnew hobj hreg
  | failed hok =>
    obtain ⟨e', hok', _⟩ := hf
    rw [hok] at hok'
    cases hok'
  | closes hk hopen hobj hcount hreg => exact h.closes hr hs hk hopen hobj hreg
  | cleared hzero hobj hcount hreg =>
    exact h.same hr hs hobj hcount (by rw [hreg]; rfl) (Or.inr ⟨hzero, by rw [hreg]; rfl⟩)
  | kept hfail hobj hcount hreg =>
    exact h.same hr hs hobj hcount (by rw [hreg]) (Or.inl (by rw [hreg]))

theorem history_init : History [] {} where
  books := books_init
  ids := List.nodup_nil
  live := fun _ h => nomatch h
  unmarked := fun _ _ h => nomatch h
  tombs := fun _ => ⟨fun h => (nomatch h), fun ⟨⟨_, h, _⟩, _⟩ => (nomatch h)⟩
  cover := fun _ ⟨_, h, _⟩ => nomatch h

theorem History.lookup_live {ops : List Op} (h : History ops p) :
    (∃ s, p.registry.lookup id = .live s) ↔ p.IsOpen id := by
  constructor
  · rintro ⟨s, hs⟩
    rw [EndpointRegistry.lookup] at hs
    split at hs
    · rename_i s' hm
      exact h.books.mapped id s' hm
    · split at hs
      · cases hs
      · cases hs
  · rintro ⟨e, he, rfl, hopen⟩
    obtain ⟨s, hm⟩ := h.live e he hopen
    refine ⟨s, ?_⟩
    rw [EndpointRegistry.lookup, hm]
    exact if_neg (by rw [h.unmarked e.id s hm]; exact Bool.false_ne_true)

theorem History.lookup_closed {ops : List Op} (h : History ops p) :
    p.registry.lookup id = .closed ↔ p.IsClosed id ∧ Covered ops id := by
  rw [← h.tombs id, EndpointRegistry.lookup]
  cases hm : p.registry.map id with
  | none =>
    cases ht : p.registry.tombstones id with
    | false =>
      constructor
      · intro h
        cases h
      · intro h
        cases h
    | true => exact ⟨fun _ => rfl, fun _ => rfl⟩
  | some s =>
    -- the open endpoint of that id is the only one
    obtain ⟨e, he, hid, hopen⟩ := h.books.mapped id s hm
    have hu := h.unmarked id s hm
    dsimp only
    rw [hu]
    constructor
    · intro h
      cases h
    · intro ht
      obtain ⟨⟨x, hx, hxid, hxc⟩, _⟩ := (h.tombs id).mp ht
      have hxe : x = e := List.inj_on_of_nodup_map h.ids hx he (hxid.trans hid.symm)
      rw [hxe, hopen] at hxc
      cases hxc

/-- **Three states.**  After any operations whose constructions succeed with ids of their own, the
answer for an id is a function of its endpoint and of the moments without endpoints since. -/
theorem lookup_history {ops : List Op} (hfresh : stepsMeet step Fresh {} ops)
    (hrun : run step {} ops = some p) (id : List UInt8) :
    ((∃ s, p.registry.lookup id = .live s) ↔ p.IsOpen id) ∧
    (p.registry.lookup id = .closed ↔ p.IsClosed id ∧ Covered ops id) ∧
    (p.registry.lookup id = .absent ↔ ¬ p.IsOpen id ∧ ¬ (p.IsClosed id ∧ Covered ops id)) ∧
    ((p.registry.resolve id).isSome = true ↔ ∃ s, p.registry.lookup id = .live s) := by
  have h : History ops p := run_history (P := History)
    (fun _ _ _ _ hr h hf hs => h.step hr hf hs) history_init hfresh hrun
  refine ⟨h.lookup_live, h.lookup_closed, ?_, ?_⟩
  · rw [← h.lookup_live, ← h.lookup_closed]
    cases p.registry.lookup id with
    | absent => exact ⟨fun _ => ⟨fun ⟨_, h⟩ => (nomatch h), fun h => (nomatch h)⟩, fun _ => rfl⟩
    | live s => exact ⟨fun h => (nomatch h), fun ⟨h, _⟩ => absurd ⟨s, rfl⟩ h⟩
    | closed => exact ⟨fun h => (nomatch h), fun ⟨_, h⟩ => absurd rfl h⟩
  · rw [Option.isSome_iff_exists]
    exact exists_congr (fun s => EndpointRegistry.resolve_eq_some)

/-- two endpoints, the first one closed -/
def twoEndpoints : List Op :=
  [.construct (.ok [0x61]) false noSocketEnv, .construct (.ok [0x62]) false noSocketEnv, .close 0]

theorem twoEndpoints_fresh : stepsMeet step Fresh {} twoEndpoints := by
  refine stepsMeet_cons ⟨_, rfl, ?_⟩ rfl (stepsMeet_cons ⟨_, rfl, ?_⟩ rfl
    (stepsMeet_cons trivial rfl trivial))
  · rintro ⟨e, he, _⟩
    cases he
  · rintro ⟨e, he, hid⟩
    rw [List.mem_singleton.mp he] at hid
    cases hid

theorem lookup_history_two : ∃ p, run step {} twoEndpoints = some p ∧
    (p.registry.lookup [0x61] = .closed ↔ p.IsClosed [0x61] ∧ Covered twoEndpoints [0x61]) :=
  ⟨_, rfl, (lookup_history twoEndpoints_fresh rfl [0x61]).2.1⟩

end Endpoints

end RayX
