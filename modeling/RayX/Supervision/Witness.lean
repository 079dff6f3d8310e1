import RayX.Lib.Table
import RayX.Lib.Watch
import Mathlib.Data.Rat.Defs

/-!
# Completion and lifecycle backends

The backends through which a supervisor publishes and connectors observe: in memory, and as a document
that is replaced atomically and polled.  A call may fail at any of its system calls.

* `SyntheticCompletion`, `ExternalCompletion`   the record of a completion, by epoch or as a marker;
* `SyntheticLifecycle`, `ExternalLifecycle`     the list of lifecycle events;
* `Exact`                      an observation is of a publication under its epoch only;
* `synthetic_completion_exact`, `external_completion_exact`, `synthetic_events_exact`,
  `external_events_exact`      **the observations of the four backends are exact**.
-/

namespace RayX
open Sys

namespace Supervision

/-- what an observer reports; `verbatim` is the record that it saw -/
structure Observation (R : Type) where
  backend : String
  observer : String
  epochId : String
  observed : Bool
  epochMatch : Bool
  staleEpochsRejected : List String
  bounded : Bool
  verbatim : Option R

/-- an observed record is one that was published -/
def Exact {R : Type} (o : Observation R) (published : R → Prop) : Prop :=
  o.epochMatch = o.observed ∧ (o.observed = true → ∃ r, o.verbatim = some r ∧ published r)

/-- epochs are remembered once -/
def addStale (stale : List String) (epochId : String) : List String :=
  if stale.contains epochId then stale else stale ++ [epochId]

def sortedNames (l : List String) : List String := l.mergeSort fun a b => decide (a ≤ b)

section
variable {ε : Type}

/-! ## completion -/

structure CompletionRecord where
  backend : String
  epochId : String
  connectorIds : List String
  payload : Option String × Option String
  publishedWallMs : Int
  publishedMono : ℚ
  markerPath : Option String
  deriving DecidableEq

/-- a call of `publish_complete`, and what a write or the rename raises -/
structure Publication (ε : Type) where
  epochId : String
  connectorIds : List String
  payload : Option String × Option String
  wallMs : Int
  mono : ℚ
  fault : Option ε

def Publication.record (p : Publication ε) (backend : String) (markerPath : Option String) :
    CompletionRecord :=
  ⟨backend, p.epochId, sortedNames p.connectorIds, p.payload, p.wallMs, p.mono, markerPath⟩

/-- `_published`, a record for each epoch -/
structure SyntheticCompletion where
  published : List (String × CompletionRecord) := []

namespace SyntheticCompletion

def publishComplete (b : SyntheticCompletion) (p : Publication ε) :
    SyntheticCompletion × CompletionRecord :=
  let rec_ := p.record "synthetic" none
  (⟨(p.epochId, rec_) :: b.published.filter fun q => q.1 ≠ p.epochId⟩, rec_)

def observeCompletion (b : SyntheticCompletion) (epochId connectorId : String) :
    Observation CompletionRecord :=
  let rec_ := b.published.lookup epochId
  let stale := sortedNames ((b.published.map Prod.fst).filter fun e => e ≠ epochId)
  ⟨"synthetic", connectorId, epochId, rec_.isSome, rec_.isSome, stale, true, rec_⟩

end SyntheticCompletion

/-- what the marker file holds -/
inductive MarkerDoc where
  | dict (r : CompletionRecord)
  | other

structure ExternalCompletion where
  markerDir : String
  marker : Option MarkerDoc := none

namespace ExternalCompletion

def markerPath (b : ExternalCompletion) : String := b.markerDir ++ "/island.complete"

/-- the marker is replaced as a whole, or not at all -/
def publishComplete (b : ExternalCompletion) (p : Publication ε) :
    ExternalCompletion × Except ε CompletionRecord :=
  let rec_ := p.record "external_witness" (some b.markerPath)
  match p.fault with
  | some e => (b, .error e)
  | none => ({ b with marker := some (.dict rec_) }, .ok rec_)

/-- one round of the observer: a marker of another epoch is stale -/
def look (epochId : String) (stale : List String) :
    Option ExternalCompletion → Option CompletionRecord × List String
  | some { marker := some (.dict r), .. } =>
    if r.epochId = epochId then (some r, stale) else (none, addStale stale r.epochId)
  | _ => (none, stale)

def observeCompletion (b : ExternalCompletion) (epochId connectorId : String)
    (polls : List (WatchRound (Publication ε))) : Option (Observation CompletionRecord) :=
  (watch (fun b p => (publishComplete b p).1) (look epochId) b [] polls).map fun p =>
    ⟨"external_witness", connectorId, epochId, p.1.isSome, p.1.isSome, p.2, true, p.1⟩

end ExternalCompletion

/-! ## lifecycle events -/

structure LifecycleEvent where
  epochId : String
  connector : String
  kind : String
  evidenceDigest : Option String
  classification : Option String
  publishedMono : ℚ
  publishedWallMs : Option Int
  deriving DecidableEq

/-- how the read of a call goes: an `OSError` or a `ValueError` is swallowed, another error is not -/
inductive ReadOutcome (ε : Type) where
  | done
  | swallowed
  | raised (e : ε)

/-- a call of `publish_event`: how its read goes, and what its writes or its rename raise -/
structure EventCall (ε : Type) where
  epochId : String
  connector : String
  kind : String
  evidenceDigest : Option String
  classification : Option String
  mono : ℚ
  wallMs : Int
  read : ReadOutcome ε
  fault : Option ε

def ReadOutcome.raises : ReadOutcome ε → Bool
  | .raised _ => true
  | _ => false

/-- the call returns: nothing that it does not swallow is raised -/
def EventCall.returns (c : EventCall ε) : Bool := !c.read.raises && c.fault.isNone

/-- the first event of a kind and an epoch; `remember` what is stale -/
def scanEvents (remember : List String → String → List String) (kind epochId : String) :
    List String → List LifecycleEvent → Option LifecycleEvent × List String
  | stale, [] => (none, stale)
  | stale, e :: es =>
    if e.kind ≠ kind then scanEvents remember kind epochId stale es
    else if e.epochId ≠ epochId then scanEvents remember kind epochId (remember stale e.epochId) es
    else (some e, stale)

structure SyntheticLifecycle where
  events : List LifecycleEvent := []

namespace SyntheticLifecycle

def event (c : EventCall ε) : LifecycleEvent :=
  ⟨c.epochId, c.connector, c.kind, c.evidenceDigest, c.classification, c.mono, none⟩

def publishEvent (b : SyntheticLifecycle) (c : EventCall ε) : SyntheticLifecycle :=
  ⟨b.events ++ [event c]⟩

/-- `inTime`: the clock is within the bound after the scan -/
def observeEvents (b : SyntheticLifecycle) (epochId observer kind : String) (inTime : Bool) :
    Observation LifecycleEvent :=
  let p := scanEvents (fun stale e => stale ++ [e]) kind epochId [] b.events
  ⟨"synthetic", observer, epochId, p.1.isSome, p.1.isSome, p.2, p.1.isSome || inTime, p.1⟩

end SyntheticLifecycle

/-- what the file of events holds -/
inductive EventsDoc where
  | list (es : List LifecycleEvent)
  | other

structure ExternalLifecycle where
  doc : Option EventsDoc := none

namespace ExternalLifecycle

def event (c : EventCall ε) : LifecycleEvent :=
  ⟨c.epochId, c.connector, c.kind, c.evidenceDigest, c.classification, c.mono, some c.wallMs⟩

/-- the events of the file, none where it holds no list -/
def events (b : ExternalLifecycle) : List LifecycleEvent :=
  match b.doc with
  | some (.list es) => es
  | _ => []

/-- `_read` -/
def readEvents (b : ExternalLifecycle) : ReadOutcome ε → Except ε (List LifecycleEvent)
  | .done => .ok b.events
  | .swallowed => .ok []
  | .raised e => .error e

/-- the events that were read and one more, written beside the file and renamed over it -/
def publishEvent (b : ExternalLifecycle) (c : EventCall ε) : ExternalLifecycle × Except ε Unit :=
  match b.readEvents c.read with
  | .error e => (b, .error e)
  | .ok es =>
    match c.fault with
    | some e => (b, .error e)
    | none => (⟨some (.list (es ++ [event c]))⟩, .ok ())

/-- one round of the observer -/
def look (kind epochId : String) (stale : List String) (b : Option ExternalLifecycle) :
    Option LifecycleEvent × List String :=
  scanEvents addStale kind epochId stale (match b with
    | some b => b.events
    | none => [])

def observeEvents (b : ExternalLifecycle) (epochId observer kind : String)
    (polls : List (WatchRound (EventCall ε))) : Option (Observation LifecycleEvent) :=
  (watch (fun b c => (publishEvent b c).1) (look kind epochId) b [] polls).map fun p =>
    ⟨"external_witness", observer, epochId, p.1.isSome, p.1.isSome, p.2, p.1.isSome, p.1⟩

end ExternalLifecycle

/-! ## exact observations -/

/-- a record is found under the epoch that it was published under -/
theorem SyntheticCompletion.published_key {ps : List (Publication ε)} {e : String}
    {r : CompletionRecord}
    (h : (e, r) ∈ (ps.foldl (fun b p => (SyntheticCompletion.publishComplete b p).1) {}).published) :
    ∃ p ∈ ps, p.epochId = e ∧ r = p.record "synthetic" none := by
  have hput := put_of_foldl (P := fun b : SyntheticCompletion => (e, r) ∈ b.published)
    (Q := fun p => p.epochId = e ∧ r = p.record "synthetic" none) ?_ h
  · exact hput.resolve_left List.not_mem_nil
  · intro b p hp
    rcases List.mem_cons.mp hp with hp | hp
    · obtain ⟨rfl, rfl⟩ := Prod.mk.inj hp
      exact .inr ⟨rfl, rfl⟩
    · exact .inl (List.mem_filter.mp hp).1

theorem synthetic_completion_exact (ps : List (Publication ε)) (epochId connectorId : String) :
    Exact ((ps.foldl (fun b p => (SyntheticCompletion.publishComplete b p).1) {}).observeCompletion
      epochId connectorId)
      fun r => ∃ p ∈ ps, p.epochId = epochId ∧ r = p.record "synthetic" none := by
  refine ⟨rfl, fun hobs => ?_⟩
  obtain ⟨r, hr⟩ := Option.isSome_iff_exists.mp hobs
  exact ⟨r, hr, SyntheticCompletion.published_key (mem_of_lookup hr)⟩

/-- a publication leaves the marker, or makes it its own -/
theorem ExternalCompletion.publish_marker {b : ExternalCompletion} {p : Publication ε}
    {r : CompletionRecord} (h : (publishComplete b p).1.marker = some (.dict r)) :
    b.marker = some (.dict r) ∨
      p.fault = none ∧ r = p.record "external_witness" (some b.markerPath) := by
  unfold publishComplete at h
  cases hf : p.fault with
  | some e =>
    rw [hf] at h
    exact .inl h
  | none =>
    rw [hf] at h
    exact .inr ⟨rfl, (MarkerDoc.dict.inj (Option.some.inj h)).symm⟩

@[simp] theorem ExternalCompletion.publish_path (b : ExternalCompletion) (p : Publication ε) :
    (publishComplete b p).1.markerPath = b.markerPath := by
  unfold publishComplete
  cases p.fault <;> rfl

/-- the marker is that of a publication that did not fail -/
theorem ExternalCompletion.marker_published {b : ExternalCompletion} {ps : List (Publication ε)}
    {r : CompletionRecord} (hb : b.marker = none)
    (h : (ps.foldl (fun b p => (publishComplete b p).1) b).marker = some (.dict r)) :
    ∃ p ∈ ps, p.fault = none ∧ r = p.record "external_witness" (some b.markerPath) := by
  have hpath : (ps.foldl (fun b p => (publishComplete b p).1) b).markerPath = b.markerPath := by
    clear h hb
    induction ps generalizing b with
    | nil => rfl
    | cons p ps ih => rw [List.foldl_cons, ih, publish_path]
  have hput := put_of_foldl
    (P := fun b' : ExternalCompletion => b'.markerPath = b.markerPath ∧ b'.marker = some (.dict r))
    (Q := fun p => p.fault = none ∧ r = p.record "external_witness" (some b.markerPath))
    ?_ ⟨hpath, h⟩
  · refine hput.resolve_left fun h => ?_
    rw [hb] at h
    cases h.2
  · rintro b' p ⟨hpath, hmarker⟩
    rw [publish_path] at hpath
    rw [← hpath]
    exact (publish_marker hmarker).imp_left fun hmarker => ⟨rfl, hmarker⟩

theorem external_completion_exact (markerDir : String) (before : List (Publication ε))
    (epochId connectorId : String) (polls : List (WatchRound (Publication ε)))
    {o : Observation CompletionRecord}
    (h : (before.foldl (fun b p => (ExternalCompletion.publishComplete b p).1)
      { markerDir := markerDir }).observeCompletion epochId connectorId polls = some o) :
    Exact o fun r => ∃ p ∈ before ++ polls.flatMap WatchRound.writes, p.fault = none ∧
      p.epochId = epochId ∧
      r = p.record "external_witness" (some (ExternalCompletion.markerPath ⟨markerDir, none⟩)) := by
  obtain ⟨⟨found, stale⟩, hw, rfl⟩ := Option.map_eq_some_iff.mp h
  refine ⟨rfl, fun hobs => ?_⟩
  obtain ⟨r, hr⟩ := Option.isSome_iff_exists.mp hobs
  cases hr
  obtain ⟨ws, a, hws, hlook⟩ := watch_found (fun _ => rfl) hw
  rw [← List.foldl_append] at hlook
  refine ⟨r, rfl, ?_⟩
  unfold ExternalCompletion.look at hlook
  split at hlook
  · rename_i r' hmarker
    split at hlook
    · rename_i hepoch
      cases hlook
      have hmarker : ((before ++ ws).foldl (fun b p => (ExternalCompletion.publishComplete b p).1)
          { markerDir := markerDir }).marker = some (.dict r) := by rw [Option.some.inj hmarker]
      obtain ⟨p, hp, hfault, hrec⟩ := ExternalCompletion.marker_published rfl hmarker
      refine ⟨p, ?_, hfault, ?_, hrec⟩
      · exact (List.mem_append.mp hp).elim (List.mem_append_left _)
          fun hp => List.mem_append_right _ (hws.subset hp)
      · rw [← hepoch, hrec]
        rfl
    · cases hlook
  · cases hlook

/-- a scan gives an event of the list, of the kind and of the epoch -/
theorem scanEvents_found {remember : List String → String → List String} {kind epochId : String}
    {es : List LifecycleEvent} {stale stale' : List String} {e : LifecycleEvent}
    (h : scanEvents remember kind epochId stale es = (some e, stale')) :
    e ∈ es ∧ e.kind = kind ∧ e.epochId = epochId := by
  induction es generalizing stale with
  | nil => cases h
  | cons e' es ih =>
    unfold scanEvents at h
    split at h
    · obtain ⟨hmem, hk⟩ := ih h
      exact ⟨List.mem_cons_of_mem _ hmem, hk⟩
    · rename_i hkind
      split at h
      · obtain ⟨hmem, hk⟩ := ih h
        exact ⟨List.mem_cons_of_mem _ hmem, hk⟩
      · rename_i hepoch
        cases h
        exact ⟨List.mem_cons_self, Decidable.not_not.mp hkind, Decidable.not_not.mp hepoch⟩

theorem SyntheticLifecycle.events_published (cs : List (EventCall ε)) (b : SyntheticLifecycle) :
    (cs.foldl publishEvent b).events = b.events ++ cs.map event := by
  induction cs generalizing b with
  | nil => exact (List.append_nil _).symm
  | cons c cs ih =>
    rw [List.foldl_cons, ih, List.map_cons]
    exact List.append_assoc ..

theorem synthetic_events_exact (cs : List (EventCall ε)) (epochId observer kind : String)
    (inTime : Bool) :
    Exact ((cs.foldl SyntheticLifecycle.publishEvent {}).observeEvents epochId observer kind inTime)
      fun e => ∃ c ∈ cs, c.epochId = epochId ∧ c.kind = kind ∧ e = SyntheticLifecycle.event c := by
  refine ⟨rfl, fun hobs => ?_⟩
  obtain ⟨e, he⟩ := Option.isSome_iff_exists.mp hobs
  obtain ⟨hmem, hkind, hepoch⟩ := scanEvents_found (Prod.ext he rfl)
  rw [SyntheticLifecycle.events_published] at hmem
  obtain ⟨c, hc, rfl⟩ := List.mem_map.mp hmem
  exact ⟨_, he, c, hc, hepoch, hkind, rfl⟩

/-- a call leaves the file, or returns and writes what it read and its event -/
theorem ExternalLifecycle.publish_cases (b : ExternalLifecycle) (c : EventCall ε) :
    c.returns = false ∧ (∃ err, publishEvent b c = (b, .error err)) ∨
      c.returns = true ∧ ∃ es, (c.read = .done ∧ es = b.events ∨ c.read = .swallowed ∧ es = []) ∧
        publishEvent b c = (⟨some (.list (es ++ [event c]))⟩, .ok ()) := by
  unfold publishEvent EventCall.returns
  cases c.read with
  | raised err => exact .inl ⟨rfl, err, rfl⟩
  | done =>
    cases c.fault with
    | some err => exact .inl ⟨rfl, err, rfl⟩
    | none => exact .inr ⟨rfl, b.events, .inl ⟨rfl, rfl⟩, rfl⟩
  | swallowed =>
    cases c.fault with
    | some err => exact .inl ⟨rfl, err, rfl⟩
    | none => exact .inr ⟨rfl, [], .inr ⟨rfl, rfl⟩, rfl⟩

/-- the events of the file are those of calls that returned -/
theorem ExternalLifecycle.event_published {cs : List (EventCall ε)} {b : ExternalLifecycle}
    {e : LifecycleEvent} (hb : b.doc = none)
    (h : e ∈ (cs.foldl (fun b c => (publishEvent b c).1) b).events) :
    ∃ c ∈ cs, c.returns = true ∧ e = event c := by
  have hput := put_of_foldl (P := fun b : ExternalLifecycle => e ∈ b.events)
    (Q := fun c => c.returns = true ∧ e = event c) ?_ h
  · refine hput.resolve_left fun h => ?_
    rw [events, hb] at h
    cases h
  · intro b c hc
    rcases publish_cases b c with ⟨_, err, heq⟩ | ⟨hret, es, hes, heq⟩
    · rw [heq] at hc
      exact .inl hc
    · rw [heq] at hc
      rcases List.mem_append.mp hc with hc | hc
      · rcases hes with ⟨_, rfl⟩ | ⟨_, rfl⟩
        · exact .inl hc
        · cases hc
      · exact .inr ⟨hret, List.mem_singleton.mp hc⟩

theorem external_events_exact (before : List (EventCall ε)) (epochId observer kind : String)
    (polls : List (WatchRound (EventCall ε))) {o : Observation LifecycleEvent}
    (h : (before.foldl (fun b c => (ExternalLifecycle.publishEvent b c).1) {}).observeEvents
      epochId observer kind polls = some o) :
    Exact o fun e => ∃ c ∈ before ++ polls.flatMap WatchRound.writes, c.returns = true ∧
      c.epochId = epochId ∧ c.kind = kind ∧ e = ExternalLifecycle.event c := by
  obtain ⟨⟨found, stale⟩, hw, rfl⟩ := Option.map_eq_some_iff.mp h
  refine ⟨rfl, fun hobs => ?_⟩
  obtain ⟨e, he⟩ := Option.isSome_iff_exists.mp hobs
  cases he
  obtain ⟨ws, a, hws, hlook⟩ := watch_found (fun _ => rfl) hw
  rw [← List.foldl_append] at hlook
  obtain ⟨hmem, hkind, hepoch⟩ := scanEvents_found hlook
  obtain ⟨c, hc, hret, rfl⟩ := ExternalLifecycle.event_published rfl hmem
  refine ⟨_, rfl, c, ?_, hret, hepoch, hkind, rfl⟩
  exact (List.mem_append.mp hc).elim (List.mem_append_left _)
    fun hc => List.mem_append_right _ (hws.subset hc)

end

end Supervision
end RayX
