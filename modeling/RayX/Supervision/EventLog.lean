import RayX.Supervision.Witness
import Mathlib.Data.List.Induction

/-!
# The lifecycle event log

A single publisher calls `publish_event`, and any step of a call may fail.  A call reads the events, and
writes them back with its own; but a read that fails in an `OSError` or a `ValueError` reads no event.

* `published`            the file after some calls, `returnedEvents` those of the calls that returned;
* `AppendOnly`           each call appends its event or leaves the file, and what an observer finds
                         it finds after any further calls;
* `ReadsBack`            a call that returns has read the file, unless nothing was in it;
* `append_only_iff`      **the log is append-only exactly in the runs that read back**.
-/

namespace RayX

namespace Supervision

section
variable {ε : Type}

namespace ExternalLifecycle

/-- the file after the calls of a publisher -/
def published (cs : List (EventCall ε)) : ExternalLifecycle :=
  cs.foldl (fun b c => (publishEvent b c).1) {}

def returnedEvents (cs : List (EventCall ε)) : List LifecycleEvent :=
  (cs.filter EventCall.returns).map event

/-- a call that returns leaves the events of the earlier ones and its own, one that raises leaves the
file; and an event that is found once is found again -/
def AppendOnly (cs : List (EventCall ε)) : Prop :=
  (∀ before c after, cs = before ++ c :: after →
    ((publishEvent (published before) c).2 = .ok () →
      (publishEvent (published before) c).1.doc =
        some (.list (returnedEvents before ++ [event c]))) ∧
    ∀ err, (publishEvent (published before) c).2 = .error err →
      (publishEvent (published before) c).1 = published before) ∧
  ∀ before after, cs = before ++ after → ∀ kind epochId stale e,
    (look kind epochId stale (some (published before))).1 = some e →
      (look kind epochId stale (some (published cs))).1 = some e

/-- a call that returns has read the file, or no call before it has returned -/
def ReadsBack (cs : List (EventCall ε)) : Prop :=
  ∀ before c after, cs = before ++ c :: after → c.returns = true →
    c.read = .done ∨ ∀ p ∈ before, p.returns = false

theorem published_concat (cs : List (EventCall ε)) (c : EventCall ε) :
    published (cs ++ [c]) = (publishEvent (published cs) c).1 := List.foldl_append ..

theorem returnedEvents_concat (cs : List (EventCall ε)) (c : EventCall ε) :
    returnedEvents (cs ++ [c]) = returnedEvents cs ++ if c.returns then [event c] else [] := by
  unfold returnedEvents
  rw [List.filter_append, List.map_append, List.filter_cons, List.filter_nil]
  cases c.returns <;> rfl

theorem returnedEvents_nil_iff {cs : List (EventCall ε)} :
    returnedEvents cs = [] ↔ ∀ p ∈ cs, p.returns = false := by
  unfold returnedEvents
  rw [List.map_eq_nil_iff, List.filter_eq_nil_iff]
  exact forall₂_congr fun _ _ => Bool.not_eq_true _ ▸ Iff.rfl

theorem ReadsBack.left {cs ds : List (EventCall ε)} (h : ReadsBack (cs ++ ds)) : ReadsBack cs := by
  intro before c after hcs
  exact h before c (after ++ ds) (by rw [hcs, List.append_assoc, List.cons_append])

/-- what a call that returns has read, in a run that reads back -/
theorem ReadsBack.read {cs : List (EventCall ε)} {c : EventCall ε} (h : ReadsBack (cs ++ [c]))
    (hret : c.returns = true) (hevents : (published cs).events = returnedEvents cs)
    {es : List LifecycleEvent}
    (hes : c.read = .done ∧ es = (published cs).events ∨ c.read = .swallowed ∧ es = []) :
    es = returnedEvents cs := by
  rcases hes with ⟨_, rfl⟩ | ⟨hread, rfl⟩
  · exact hevents
  · rcases h cs c [] rfl hret with hdone | hnone
    · cases hread.symm.trans hdone
    · exact (returnedEvents_nil_iff.mpr hnone).symm

/-- the file holds the events of the calls that returned -/
theorem ReadsBack.events {cs : List (EventCall ε)} (h : ReadsBack cs) :
    (published cs).events = returnedEvents cs := by
  induction cs using List.reverseRecOn with
  | nil => rfl
  | append_singleton cs c ih =>
    have hevents := ih h.left
    rw [published_concat, returnedEvents_concat]
    rcases publish_cases (published cs) c with ⟨hret, err, heq⟩ | ⟨hret, es, hes, heq⟩
    · rw [heq, hret, hevents]
      exact (List.append_nil _).symm
    · rw [heq, hret, ← h.read hret hevents hes]
      rfl

/-- a longer list of events gives what a shorter one gave -/
theorem scanEvents_append {kind epochId : String} {remember : List String → String → List String}
    {es more : List LifecycleEvent} {stale : List String} {e : LifecycleEvent}
    (h : (scanEvents remember kind epochId stale es).1 = some e) :
    (scanEvents remember kind epochId stale (es ++ more)).1 = some e := by
  induction es generalizing stale with
  | nil => cases h
  | cons e' es ih =>
    rw [List.cons_append]
    unfold scanEvents at h ⊢
    split at h
    · rename_i hkind
      rw [if_pos hkind]
      exact ih h
    · rename_i hkind
      rw [if_neg hkind]
      split at h
      · rename_i hepoch
        rw [if_pos hepoch]
        exact ih h
      · rename_i hepoch
        rw [if_neg hepoch]
        exact h

/-- **The log of lifecycle events is append-only** in a run of calls, exactly if every call that returns
has read the file, unless no earlier call returned. -/
theorem append_only_iff (cs : List (EventCall ε)) : AppendOnly cs ↔ ReadsBack cs := by
  constructor
  · rintro ⟨happend, _⟩ before c after hcs hret
    rcases publish_cases (published before) c with ⟨hraise, _⟩ | ⟨_, es, hes, heq⟩
    · rw [hret] at hraise
      cases hraise
    · rcases hes with ⟨hread, _⟩ | ⟨_, rfl⟩
      · exact .inl hread
      · have hdoc := (happend before c after hcs).1 (by rw [heq])
        rw [heq] at hdoc
        have hlist := EventsDoc.list.inj (Option.some.inj hdoc)
        exact .inr (returnedEvents_nil_iff.mp (List.append_cancel_right hlist).symm)
  · intro h
    refine ⟨fun before c after hcs => ?_, fun before after hcs kind epochId stale e hlook => ?_⟩
    · have hrun : ReadsBack (before ++ [c]) := by
        rw [hcs, List.append_cons] at h
        exact h.left
      rcases publish_cases (published before) c with ⟨_, err, heq⟩ | ⟨hret, es, hes, heq⟩
      · rw [heq]
        exact ⟨fun hok => (by cases hok), fun _ _ => rfl⟩
      · rw [heq, hrun.read hret hrun.left.events hes]
        exact ⟨fun _ => rfl, fun _ herr => (by cases herr)⟩
    · subst hcs
      unfold look at hlook ⊢
      dsimp only at hlook ⊢
      rw [h.left.events] at hlook
      rw [h.events, returnedEvents, List.filter_append, List.map_append]
      exact scanEvents_append hlook

/-- a departure, and a call whose read fails -/
def lossyCalls : List (EventCall String) :=
  [⟨"e1", "b", "DEPARTED", some "d", some "LOSS", 1, 1000, .done, none⟩,
    ⟨"e1", "a", "JOINED", none, none, 2, 2000, .swallowed, none⟩]

/-- the departure is overwritten -/
theorem departure_lost :
    (look "DEPARTED" "e1" [] (some (published (lossyCalls.take 1)))).1.isSome = true ∧
      (look "DEPARTED" "e1" [] (some (published lossyCalls))).1 = none ∧
      ¬ AppendOnly lossyCalls := by
  refine ⟨by decide, by decide, fun h => ?_⟩
  have hfound := h.2 (lossyCalls.take 1) (lossyCalls.drop 1) rfl "DEPARTED" "e1" [] _ rfl
  rw [show (look "DEPARTED" "e1" [] (some (published lossyCalls))).1 = none by decide] at hfound
  cases hfound

end ExternalLifecycle

end

end Supervision
end RayX
