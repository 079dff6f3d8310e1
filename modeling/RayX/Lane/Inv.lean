import RayX.Lane.Lane

/-!
# Bookkeeping of the lane

Where the items are: the queue is the unpopped end of the history of admissions, the consumer holds
the item it popped last, `inflight_toks_` lists exactly the items that are registered or in flight.

* `Wf`        the invariant;
* `Wf.step`   **every step keeps it**, `Wf.reach` every run;
* `Wf.queued_iff`, `Wf.collected`   which tokens `cancel_pending` collects.
-/

namespace RayX
open Sys

section
variable {σ : Type}

/-- the consumer has registered item `i` and not launched it yet -/
def Consumer.registers (c : Consumer σ) (i : Nat) : Bool :=
  match c with
  | .registered it => it.id == i
  | _ => false

def Pending.items : Pending → List Nat
  | .idle => []
  | .cancelling todo => todo
  | .fulfilling i todo => i :: todo

namespace Lane

/-- item `i` occupies an in-flight slot -/
def flies (s : Lane σ) (i : Nat) : Prop :=
  s.consumer.registers i = true ∨ (s.svc i ≠ none ∧ s.consumer.serves i = false)

structure Wf (s : Lane σ) : Prop where
  ids : ∀ k (it : Item σ), s.admitted[k]? = some it → it.id = k
  suffix : s.queue <:+ s.admitted
  held : ∀ it, s.consumer.item? = some it →
    s.admitted[it.id]? = some it ∧ it.id + 1 + s.queue.length = s.admitted.length
  begun : ∀ i, s.svc i ≠ none → i + s.queue.length < s.admitted.length
  here : ∀ i, s.consumer.serves i = true → s.svc i ≠ none ∧ s.svc i ≠ some .fulfilled
  notHere : ∀ it, s.consumer.item? = some it → s.consumer.serves it.id = false →
    s.svc it.id = none
  toks : ∀ i, i ∈ s.inflightToks ↔ s.flies i
  nodup : s.inflightToks.Nodup
  count : s.inflight = s.inflightToks.length
  active : s.mode = .serialBlocking → ∀ it, s.consumer.item? = some it →
    s.activeTok = some it.id
  serial : s.mode = .serialBlocking → s.inflightToks = []
  slot : ∀ i, s.activeTok = some i → i < s.admitted.length
  exited : s.consumer = .exited → s.stop = true ∧ s.queue = []
  stopping : s.stopper = .idle ∨ s.stop = true
  joined : s.stopper = .awaiting ∨ s.stopper = .returned → s.consumer = .exited
  drained : s.stopper = .returned → s.inflightToks = []
  fresh : ∀ i, s.admitted.length ≤ i → s.tok i = {} ∧ s.prom i = [] ∧ s.answers i = []
  owes : ∀ i ∈ s.cancelling, i < s.admitted.length
  collected : ∀ i ∈ s.pending.items, i < s.admitted.length

theorem wf_create (actorId : String) (mode : LaneMode) (maxInflight : Int) (st : σ) :
    Wf (create actorId mode maxInflight st) where
  ids := by simp [create]
  suffix := List.suffix_rfl
  held := by simp [create, Consumer.item?]
  begun := by simp [create]
  here := by simp [create, Consumer.serves]
  notHere := by simp [create]
  toks := by simp [create, flies, Consumer.registers]
  nodup := List.nodup_nil
  count := rfl
  active := by simp [create, Consumer.item?]
  serial := fun _ => rfl
  slot := by simp [create]
  exited := by simp [create]
  stopping := Or.inl rfl
  joined := by simp [create]
  drained := fun _ => rfl
  fresh := fun _ _ => ⟨rfl, rfl, rfl⟩
  owes := by simp [create]
  collected := by simp [create, Pending.items]

theorem afterItem_cases (s : Lane σ) : s.afterItem = .clearing ∨ s.afterItem = .waiting := by
  unfold afterItem
  cases s.mode
  · exact Or.inl rfl
  · exact Or.inr rfl

theorem afterItem_item (s : Lane σ) : s.afterItem.item? = none := by
  rcases afterItem_cases s with h | h <;> rw [h] <;> rfl

theorem afterItem_serves (s : Lane σ) (i : Nat) : s.afterItem.serves i = false := by
  rcases afterItem_cases s with h | h <;> rw [h] <;> rfl

theorem afterItem_registers (s : Lane σ) (i : Nat) : s.afterItem.registers i = false := by
  rcases afterItem_cases s with h | h <;> rw [h] <;> rfl

theorem afterItem_ne (s : Lane σ) : s.afterItem ≠ .exited := by
  intro he
  rcases afterItem_cases s with h | h
  · rw [h] at he
    cases he
  · rw [h] at he
    cases he

namespace Wf
variable {s s' : Lane σ}

theorem length_le (h : Wf s) : s.queue.length ≤ s.admitted.length := h.suffix.length_le

theorem held_lt (h : Wf s) {it : Item σ} (hc : s.consumer.item? = some it) :
    it.id < s.admitted.length := by
  have hl := (h.held it hc).2
  omega

theorem push (h : Wf s) (hs : s.stop = false) (task : Prog σ Exc RuntimeResult) (cc : Int)
    (policy : DispatchPolicy) : Wf (s.push task cc policy) := by
  refine { h with
    ids := ?_, suffix := ?_, held := ?_, begun := ?_, slot := ?_, exited := ?_, fresh := ?_,
    owes := ?_, collected := ?_ }
  · intro k it hk
    simp only [Lane.push, List.getElem?_append] at hk
    split at hk
    · exact h.ids k it hk
    · rename_i hlt
      have h0 : k - s.admitted.length = 0 := by
        by_contra hne
        rw [List.getElem?_eq_none (by simp; omega)] at hk
        cases hk
      rw [h0] at hk
      cases hk
      show s.admitted.length = k
      omega
  · obtain ⟨pre, hpre⟩ := h.suffix
    exact ⟨pre, by simp only [Lane.push, ← List.append_assoc, hpre]⟩
  · intro it hit
    obtain ⟨h1, h2⟩ := h.held it hit
    have hlt := h.held_lt hit
    constructor
    · simp only [Lane.push]
      rw [List.getElem?_append_left hlt]
      exact h1
    · simp only [Lane.push, List.length_append, List.length_singleton]
      omega
  · intro i hi
    have := h.begun i hi
    simp only [Lane.push, List.length_append, List.length_singleton]
    omega
  · intro i hi
    have := h.slot i hi
    simp only [Lane.push, List.length_append, List.length_singleton]
    omega
  · intro hc
    have := (h.exited hc).1
    rw [hs] at this
    cases this
  · intro i hi
    simp only [Lane.push, List.length_append, List.length_singleton] at hi
    exact h.fresh i (by omega)
  · intro i hi
    have := h.owes i hi
    simp only [Lane.push, List.length_append, List.length_singleton]
    omega
  · intro i hi
    have := h.collected i hi
    simp only [Lane.push, List.length_append, List.length_singleton]
    omega

theorem cancelTok (h : Wf s) {i : Nat} (hi : i < s.admitted.length) : Wf (s.cancelTok i) := by
  refine { h with fresh := ?_ }
  intro j hj
  have hne : j ≠ i := by
    rintro rfl
    exact absurd hi (Nat.not_lt.mpr hj)
  simp only [Lane.cancelTok, Function.update_of_ne hne]
  exact h.fresh j hj

theorem fulfil (h : Wf s) {i : Nat} (hi : i < s.admitted.length) (r : RuntimeResult) :
    Wf (s.fulfil i r) := by
  refine { h with fresh := ?_ }
  intro j hj
  have hne : j ≠ i := by
    rintro rfl
    exact absurd hi (Nat.not_lt.mpr hj)
  simp only [Lane.fulfil, Function.update_of_ne hne]
  exact h.fresh j hj

theorem setTok (h : Wf s) {i : Nat} (hi : i < s.admitted.length) (t : Token) :
    Wf (s.setTok i t) := by
  refine { h with fresh := ?_ }
  intro j hj
  have hne : j ≠ i := by
    rintro rfl
    exact absurd hi (Nat.not_lt.mpr hj)
  simp only [Lane.setTok, Function.update_of_ne hne]
  exact h.fresh j hj

theorem svc_lt (h : Wf s) {i : Nat} (hv : s.svc i ≠ none) : i < s.admitted.length := by
  have := h.begun i hv
  omega

theorem svc_update {i j : Nat} {v : Svc σ} (hv : s.svc i ≠ none) :
    Function.update s.svc i (some v) j ≠ none ↔ s.svc j ≠ none := by
  by_cases hj : j = i
  · rw [hj, Function.update_self]
    simp [hv]
  · rw [Function.update_of_ne hj]

/-- the service of an item moves on -/
theorem setSvc (h : Wf s) {i : Nat} {v : Svc σ} (hv : s.svc i ≠ none)
    (hf : s.consumer.serves i = true → v ≠ .fulfilled) : Wf (s.setSvc i (some v)) := by
  refine { h with begun := ?_, here := ?_, notHere := ?_, toks := ?_ }
  · intro j hj
    exact h.begun j ((svc_update hv).mp hj)
  · intro j hj
    refine ⟨(svc_update hv).mpr (h.here j hj).1, ?_⟩
    show Function.update s.svc i (some v) j ≠ some .fulfilled
    by_cases hji : j = i
    · rw [hji, Function.update_self]
      rw [hji] at hj
      intro hh
      exact hf hj (Option.some.inj hh)
    · rw [Function.update_of_ne hji]
      exact (h.here j hj).2
  · intro it hit hns
    have hn := h.notHere it hit hns
    have hne : it.id ≠ i := by
      intro hh
      rw [hh] at hn
      exact hv hn
    show Function.update s.svc i (some v) it.id = none
    rw [Function.update_of_ne hne]
    exact hn
  · intro j
    show j ∈ s.inflightToks ↔
      s.consumer.registers j = true ∨ (Function.update s.svc i (some v) j ≠ none ∧ _)
    rw [svc_update hv, h.toks j]
    rfl

/-- the consumer moves on, with the item it holds or without it -/
theorem move (h : Wf s) {c d : Consumer σ} (hd : s.consumer = d)
    (hit : ∀ it, c.item? = some it → d.item? = some it) (hsv : ∀ i, c.serves i = d.serves i)
    (hrg : ∀ i, c.registers i = d.registers i) (hx : d ≠ .exited)
    (he : c = .exited → s.stop = true ∧ s.queue = []) : Wf { s with consumer := c } := by
  subst hd
  refine { h with
    held := ?_, here := ?_, notHere := ?_, toks := ?_, active := ?_, exited := ?_, joined := ?_ }
  · exact fun it hc => h.held it (hit it hc)
  · intro i hi
    exact h.here i ((hsv i).symm.trans hi)
  · intro it hc hns
    exact h.notHere it (hit it hc) ((hsv it.id).symm.trans hns)
  · intro i
    show i ∈ s.inflightToks ↔ c.registers i = true ∨ (s.svc i ≠ none ∧ c.serves i = false)
    rw [hsv i, hrg i]
    exact h.toks i
  · exact fun hm it hc => h.active hm it (hit it hc)
  · exact he
  · intro hj
    exact absurd (h.joined hj) hx

/-- the head of the queue is the first item that is not popped -/
theorem head (h : Wf s) {it : Item σ} {queue : List (Item σ)} (hq : s.queue = it :: queue) :
    s.admitted[it.id]? = some it ∧ it.id + s.queue.length = s.admitted.length := by
  obtain ⟨pre, hpre⟩ := h.suffix
  have hget : s.admitted[pre.length]? = some it := by
    rw [← hpre, hq]
    simp
  have hid := h.ids pre.length it hget
  rw [hid]
  refine ⟨hget, ?_⟩
  rw [← hpre, List.length_append]

theorem pop (h : Wf s) {it : Item σ} {queue : List (Item σ)} (hc : s.consumer = .waiting)
    (hq : s.queue = it :: queue) : Wf { s with
      queue := queue
      consumer := .popped it
      active := s.mode == .serialBlocking || s.active
      activeTok := if s.mode = .serialBlocking then some it.id else s.activeTok } := by
  obtain ⟨hget, hlen⟩ := h.head hq
  have hql : s.queue.length = queue.length + 1 := by
    rw [hq, List.length_cons]
  have hfree : s.svc it.id = none := by
    by_contra hne
    have := h.begun it.id hne
    omega
  refine { h with
    suffix := ?_, held := ?_, begun := ?_, here := ?_, notHere := ?_, toks := ?_, active := ?_,
    slot := ?_, exited := ?_, joined := ?_ }
  · have hs := h.suffix
    rw [hq] at hs
    exact (List.suffix_cons it queue).trans hs
  · intro it' hit
    cases hit
    refine ⟨hget, ?_⟩
    show it.id + 1 + queue.length = s.admitted.length
    omega
  · intro i hi
    have := h.begun i hi
    show i + queue.length < s.admitted.length
    omega
  · intro i hi
    cases hi
  · intro it' hit _
    cases hit
    exact hfree
  · intro i
    have hi := h.toks i
    unfold flies at hi
    rw [hc] at hi
    exact hi
  · intro hm it' hit
    cases hit
    exact if_pos hm
  · intro i hi
    have hi' : (if s.mode = .serialBlocking then some it.id else s.activeTok) = some i := hi
    split at hi'
    · cases hi'
      show it.id < s.admitted.length
      omega
    · exact h.slot i hi'
  · intro he
    cases he
  · intro hj
    have := h.joined hj
    rw [hc] at this
    cases this

theorem starts (h : Wf s) {it : Item σ} (hc : s.consumer = .began it) :
    Wf { s.setSvc it.id (some (.body it.task)) with consumer := .serving it } := by
  have hitem : s.consumer.item? = some it := by rw [hc]; rfl
  have hlen := (h.held it hitem).2
  refine { h with
    held := ?_, begun := ?_, here := ?_, notHere := ?_, toks := ?_, active := ?_, exited := ?_,
    joined := ?_ }
  · intro it' hit
    cases hit
    exact h.held it hitem
  · intro i hi
    by_cases hne : i = it.id
    · show i + s.queue.length < s.admitted.length
      omega
    · exact h.begun i (fun hn => hi ((Function.update_of_ne hne _ _).trans hn))
  · intro i hi
    have hid : it.id = i := beq_iff_eq.mp hi
    show Function.update s.svc it.id _ i ≠ none ∧ Function.update s.svc it.id _ i ≠ some .fulfilled
    rw [← hid, Function.update_self]
    refine ⟨Option.some_ne_none _, ?_⟩
    intro hh
    cases hh
  · intro it' hit hns
    cases hit
    have : it.id ≠ it.id := beq_eq_false_iff_ne.mp hns
    exact absurd rfl this
  · intro i
    have hi := h.toks i
    unfold flies at hi
    rw [hc] at hi
    show i ∈ s.inflightToks ↔
      false = true ∨ (Function.update s.svc it.id _ i ≠ none ∧ (it.id == i) = false)
    rw [hi]
    by_cases hne : i = it.id
    · have hfree : s.svc it.id = none := h.notHere it hitem (by rw [hc]; rfl)
      simp [hne, hfree, Consumer.registers]
    · rw [Function.update_of_ne hne]
      simp [Ne.symm hne, Consumer.registers, Consumer.serves]
  · intro hm it' hit
    cases hit
    exact h.active hm it hitem
  · intro he
    cases he
  · intro hj
    have := h.joined hj
    rw [hc] at this
    cases this

theorem registers (h : Wf s) {it : Item σ} (hc : s.consumer = .began it)
    (hm : s.mode ≠ .serialBlocking) : Wf { s with
      inflight := s.inflight + 1
      inflightToks := s.inflightToks ++ [it.id]
      consumer := .registered it } := by
  have hitem : s.consumer.item? = some it := by rw [hc]; rfl
  have hfree : s.svc it.id = none := h.notHere it hitem (by rw [hc]; rfl)
  have hnot : it.id ∉ s.inflightToks := by
    rw [h.toks, flies, hc]
    simp [Consumer.registers, hfree]
  refine { h with
    held := ?_, here := ?_, notHere := ?_, toks := ?_, nodup := ?_, count := ?_, active := ?_,
    serial := ?_, exited := ?_, joined := ?_, drained := ?_ }
  · intro it' hit
    cases hit
    exact h.held it hitem
  · intro i hi
    cases hi
  · intro it' hit _
    cases hit
    exact hfree
  · intro i
    have hi := h.toks i
    unfold flies at hi
    rw [hc] at hi
    show i ∈ s.inflightToks ++ [it.id] ↔ (it.id == i) = true ∨ (s.svc i ≠ none ∧ false = false)
    rw [List.mem_append, hi, List.mem_singleton, beq_iff_eq]
    simp only [Consumer.registers, Consumer.serves, Bool.false_eq_true, false_or, and_true]
    rw [or_comm, eq_comm]
  · rw [List.nodup_append]
    refine ⟨h.nodup, by simp, ?_⟩
    intro a ha b hb hab
    rw [List.mem_singleton.mp hb] at hab
    rw [hab] at ha
    exact hnot ha
  · show s.inflight + 1 = ((s.inflightToks ++ [it.id]).length : Int)
    rw [h.count, List.length_append, List.length_singleton]
    omega
  · exact fun hs => absurd hs hm
  · exact fun hs => absurd hs hm
  · intro he
    cases he
  · intro hj
    have := h.joined hj
    rw [hc] at this
    cases this
  · intro hd
    have := h.joined (Or.inr hd)
    rw [hc] at this
    cases this

theorem launch (h : Wf s) {it : Item σ} (hc : s.consumer = .registered it) :
    Wf { s.setSvc it.id (some (.body it.task)) with consumer := .waiting } := by
  have hitem : s.consumer.item? = some it := by rw [hc]; rfl
  have hlen := (h.held it hitem).2
  refine { h with
    held := ?_, begun := ?_, here := ?_, notHere := ?_, toks := ?_, active := ?_, exited := ?_,
    joined := ?_ }
  · intro it' hit
    cases hit
  · intro i hi
    by_cases hne : i = it.id
    · show i + s.queue.length < s.admitted.length
      omega
    · exact h.begun i (fun hn => hi ((Function.update_of_ne hne _ _).trans hn))
  · intro i hi
    cases hi
  · intro it' hit
    cases hit
  · intro i
    have hi := h.toks i
    unfold flies at hi
    rw [hc] at hi
    show i ∈ s.inflightToks ↔
      false = true ∨ (Function.update s.svc it.id _ i ≠ none ∧ false = false)
    rw [hi]
    by_cases hne : i = it.id
    · simp [hne, Consumer.registers]
    · rw [Function.update_of_ne hne]
      simp [Ne.symm hne, Consumer.registers, Consumer.serves]
  · intro _ it' hit
    cases hit
  · intro he
    cases he
  · intro hj
    have := h.joined hj
    rw [hc] at this
    cases this

theorem retire (h : Wf s) {i : Nat} (hc : s.consumer.serves i = true) (r : RuntimeResult) :
    Wf { (s.fulfil i r).setSvc i none with consumer := s.afterItem } := by
  have hlt := h.svc_lt (h.here i hc).1
  have hother : ∀ j, s.consumer.serves j = true → j = i := by
    intro j hj
    cases hcons : s.consumer with
    | serving it =>
      rw [hcons] at hc hj
      rw [← beq_iff_eq.mp hc, ← beq_iff_eq.mp hj]
    | _ =>
      rw [hcons] at hc
      cases hc
  have hnreg : ∀ j, s.consumer.registers j = false := by
    intro j
    cases hcons : s.consumer with
    | registered it =>
      rw [hcons] at hc
      cases hc
    | _ => rfl
  refine { h with
    held := ?_, begun := ?_, here := ?_, notHere := ?_, toks := ?_, active := ?_, exited := ?_,
    joined := ?_, fresh := ?_ }
  · intro it hit
    have := afterItem_item s
    rw [show s.afterItem.item? = some it from hit] at this
    cases this
  · intro j hj
    by_cases hne : j = i
    · rw [hne]
      exact h.begun i (h.here i hc).1
    · exact h.begun j (fun hn => hj ((Function.update_of_ne hne _ _).trans hn))
  · intro j hj
    have := afterItem_serves s j
    rw [show s.afterItem.serves j = true from hj] at this
    cases this
  · intro it hit
    have := afterItem_item s
    rw [show s.afterItem.item? = some it from hit] at this
    cases this
  · intro j
    have hj := h.toks j
    unfold flies at hj
    show j ∈ s.inflightToks ↔ s.afterItem.registers j = true ∨
      (Function.update s.svc i none j ≠ none ∧ s.afterItem.serves j = false)
    rw [afterItem_registers, afterItem_serves, hj, hnreg j]
    by_cases hne : j = i
    · rw [hne, Function.update_self, hc]
      simp
    · rw [Function.update_of_ne hne]
      have : s.consumer.serves j = false := by
        rw [Bool.eq_false_iff]
        exact fun hh => hne (hother j hh)
      rw [this]
  · intro _ it hit
    have := afterItem_item s
    rw [show s.afterItem.item? = some it from hit] at this
    cases this
  · intro he
    exact absurd he (afterItem_ne s)
  · intro hj
    have := h.joined hj
    rw [this] at hc
    cases hc
  · exact (h.fulfil hlt r).fresh

theorem release (h : Wf s) {i : Nat} (hv : s.svc i = some .fulfilled) :
    Wf { s.setSvc i none with
      inflight := s.inflight - 1
      inflightToks := s.inflightToks.erase i } := by
  have hns : s.consumer.serves i = false := by
    rw [Bool.eq_false_iff]
    exact fun hh => (h.here i hh).2 hv
  have hne : s.svc i ≠ none := by
    rw [hv]
    exact Option.some_ne_none _
  have hmem : i ∈ s.inflightToks := (h.toks i).mpr (Or.inr ⟨hne, hns⟩)
  have hnreg : s.consumer.registers i = false := by
    cases hcons : s.consumer with
    | registered it =>
      have hn := h.notHere it (by rw [hcons]; rfl) (by rw [hcons]; rfl)
      rw [Consumer.registers, beq_eq_false_iff_ne]
      intro hid
      rw [hid] at hn
      exact hne hn
    | _ => rfl
  refine { h with
    begun := ?_, here := ?_, notHere := ?_, toks := ?_, nodup := ?_, count := ?_, serial := ?_,
    drained := ?_ }
  · intro j hj
    by_cases hji : j = i
    · rw [hji]
      exact h.begun i hne
    · exact h.begun j (fun hn => hj ((Function.update_of_ne hji _ _).trans hn))
  · intro j hj
    have hji : j ≠ i := by
      intro hh
      rw [hh] at hj
      rw [show s.consumer.serves i = true from hj] at hns
      cases hns
    show Function.update s.svc i none j ≠ none ∧ Function.update s.svc i none j ≠ some .fulfilled
    rw [Function.update_of_ne hji]
    exact h.here j hj
  · intro it hit hf
    have hn := h.notHere it hit hf
    show Function.update s.svc i none it.id = none
    by_cases hji : it.id = i
    · rw [hji, Function.update_self]
    · rw [Function.update_of_ne hji]
      exact hn
  · intro j
    show j ∈ s.inflightToks.erase i ↔ s.consumer.registers j = true ∨
      (Function.update s.svc i none j ≠ none ∧ s.consumer.serves j = false)
    rw [h.nodup.mem_erase_iff, h.toks j]
    unfold flies
    by_cases hji : j = i
    · rw [hji, Function.update_self, hnreg]
      simp
    · rw [Function.update_of_ne hji]
      simp [hji]
  · exact h.nodup.erase i
  · show s.inflight - 1 = ((s.inflightToks.erase i).length : Int)
    have hpos := List.length_pos_of_mem hmem
    rw [h.count, List.length_erase_of_mem hmem]
    omega
  · intro hm
    show s.inflightToks.erase i = []
    rw [h.serial hm]
    rfl
  · intro hd
    show s.inflightToks.erase i = []
    rw [h.drained hd]
    rfl

/-- the queue holds the last admissions -/
theorem queued_iff (h : Wf s) {i : Nat} : i ∈ s.queue.map Item.id ↔
    i < s.admitted.length ∧ s.admitted.length ≤ i + s.queue.length := by
  obtain ⟨pre, hpre⟩ := h.suffix
  have hlen : s.admitted.length = pre.length + s.queue.length := by
    rw [← hpre, List.length_append]
  have hget : ∀ k, s.admitted[pre.length + k]? = s.queue[k]? := by
    intro k
    rw [← hpre, List.getElem?_append_right (Nat.le_add_right _ _), Nat.add_sub_cancel_left]
  constructor
  · intro hi
    obtain ⟨it, hit, rfl⟩ := List.mem_map.mp hi
    obtain ⟨k, hk, he⟩ := List.mem_iff_getElem.mp hit
    have hid := h.ids (pre.length + k) it (by rw [hget, List.getElem?_eq_getElem hk, he])
    omega
  · intro ⟨hi, hq⟩
    have hk : i - pre.length < s.queue.length := by omega
    refine List.mem_map.mpr ⟨s.queue[i - pre.length], List.getElem_mem hk, ?_⟩
    have hi' := hget (i - pre.length)
    rw [show pre.length + (i - pre.length) = i by omega, List.getElem?_eq_getElem hk] at hi'
    exact h.ids i _ hi'

theorem queue_lt (h : Wf s) {it : Item σ} (hit : it ∈ s.queue) : it.id < s.admitted.length := by
  obtain ⟨k, hk⟩ := List.getElem?_of_mem (h.suffix.subset hit)
  have hlt := (List.getElem?_eq_some_iff.mp hk).1
  rw [h.ids k it hk]
  exact hlt

theorem flies_lt (h : Wf s) {i : Nat} (hf : s.flies i) : i < s.admitted.length := by
  rcases hf with hr | ⟨hv, _⟩
  · cases hc : s.consumer with
    | registered it =>
      rw [hc] at hr
      have hid : it.id = i := beq_iff_eq.mp hr
      rw [← hid]
      exact h.held_lt (by rw [hc]; rfl)
    | _ =>
      rw [hc] at hr
      cases hr
  · exact h.svc_lt hv

theorem pendingToks_lt (h : Wf s) {i : Nat} (hi : i ∈ s.pendingToks) : i < s.admitted.length := by
  unfold pendingToks at hi
  rw [List.mem_append, List.mem_append, List.mem_map] at hi
  rcases hi with (⟨it, hit, hid⟩ | hi) | hi
  · rw [← hid]
    exact h.queue_lt hit
  · exact h.slot i (Option.mem_toList.mp hi)
  · exact h.flies_lt ((h.toks i).mp hi)

/-! ## one lemma for each move -/

theorem cancels (h : Wf s) {i : Nat} (hi : i < s.admitted.length) : Wf { s.cancelTok i with
    cancelling := if (s.tok i).cancel.2 = .fulfil then i :: s.cancelling else s.cancelling } := by
  refine { h.cancelTok hi with owes := ?_ }
  intro j hj
  have hj' : j ∈ if (s.tok i).cancel.2 = .fulfil then i :: s.cancelling else s.cancelling := hj
  split at hj'
  · rcases List.mem_cons.mp hj' with rfl | hj'
    · exact hi
    · exact h.owes j hj'
  · exact h.owes j hj'

theorem cancelFulfils (h : Wf s) {i : Nat} (hi : i ∈ s.cancelling) (r : RuntimeResult) :
    Wf { s.fulfil i r with cancelling := s.cancelling.erase i } := by
  refine { h.fulfil (h.owes i hi) r with owes := ?_ }
  intro j hj
  exact h.owes j (List.mem_of_mem_erase hj)

theorem exits (h : Wf s) (hc : s.consumer = .waiting) (hq : s.queue = []) (hs : s.stop = true) :
    Wf { s with consumer := .exited } := by
  refine h.move hc ?_ (fun _ => rfl) (fun _ => rfl) (fun hh => by cases hh) fun _ => ⟨hs, hq⟩
  intro it hit
  cases hit

theorem begins (h : Wf s) {it : Item σ} (hc : s.consumer = .popped it) (t : Token) :
    Wf { s.setTok it.id t with consumer := .began it } := by
  have hitem : s.consumer.item? = some it := by rw [hc]; rfl
  refine (h.setTok (h.held_lt hitem) t).move hc ?_ (fun _ => rfl) (fun _ => rfl)
    (fun hh => by cases hh) (fun hh => by cases hh)
  intro it' hit
  cases hit
  rfl

theorem skips (h : Wf s) {it : Item σ} (hc : s.consumer = .popped it) :
    Wf { s with consumer := s.afterItem } := by
  refine h.move hc ?_ (afterItem_serves s) (afterItem_registers s) (fun hh => by cases hh)
    fun hh => absurd hh (afterItem_ne s)
  intro it' hit
  rw [afterItem_item] at hit
  cases hit

/-- the service of an item moves on, and so may its token -/
theorem serves (h : Wf s) {i : Nat} {v w : Svc σ} (hv : s.svc i = some v) (t : Token)
    (hw : w ≠ .fulfilled) : Wf ((s.setTok i t).setSvc i (some w)) := by
  have hne : s.svc i ≠ none := by
    rw [hv]
    exact Option.some_ne_none v
  exact (h.setTok (h.svc_lt hne) t).setSvc hne fun _ => hw

theorem effects (h : Wf s) {i : Nat} {v : Svc σ} (hv : s.svc i = some v) (t : Token) (st : σ)
    (p : Prog σ Exc RuntimeResult) :
    Wf { (s.setTok i t).setSvc i (some (.body p)) with state := st } := by
  have hserves := h.serves (w := .body p) hv t (fun hh => by cases hh)
  exact { hserves with }

theorem setThere (h : Wf s) {i : Nat} {v : Svc σ} (hv : s.svc i = some v)
    (hc : s.consumer.serves i = false) (r : RuntimeResult) :
    Wf ((s.fulfil i r).setSvc i (some .fulfilled)) := by
  have hne : s.svc i ≠ none := by
    rw [hv]
    exact Option.some_ne_none v
  refine (h.fulfil (h.svc_lt hne) r).setSvc hne ?_
  intro hh
  rw [show s.consumer.serves i = true from hh] at hc
  cases hc

theorem clearTok (h : Wf s) (hc : s.consumer = .clearing) :
    Wf { s with activeTok := none, consumer := .cleared } := by
  have hmove : Wf { s with consumer := .cleared } := by
    refine h.move hc ?_ (fun _ => rfl) (fun _ => rfl) (fun hh => by cases hh) (fun hh => by cases hh)
    intro it hit
    cases hit
  refine { hmove with active := ?_, slot := ?_ }
  · intro _ it hit
    cases hit
  · intro i hi
    cases hi

theorem clearActive (h : Wf s) (hc : s.consumer = .cleared) :
    Wf { s with active := false, consumer := .waiting } := by
  have hmove : Wf { s with consumer := .waiting } := by
    refine h.move hc ?_ (fun _ => rfl) (fun _ => rfl) (fun hh => by cases hh) (fun hh => by cases hh)
    intro it hit
    cases hit
  exact { hmove with }

theorem cpCancels (h : Wf s) {i : Nat} {todo : List Nat} (hp : s.pending = .cancelling (i :: todo)) :
    Wf { s.cancelTok i with
      pending := if (s.tok i).cancel.2 = .fulfil then .fulfilling i todo else .cancelling todo } := by
  have hall := h.collected
  rw [hp] at hall
  refine { h.cancelTok (hall i List.mem_cons_self) with collected := ?_ }
  intro j hj
  have hj' : j ∈ (if (s.tok i).cancel.2 = .fulfil then Pending.fulfilling i todo
    else .cancelling todo).items := hj
  split at hj'
  · exact hall j hj'
  · exact hall j (List.mem_cons_of_mem i hj')

theorem cpFulfils (h : Wf s) {i : Nat} {todo : List Nat} (hp : s.pending = .fulfilling i todo)
    (r : RuntimeResult) : Wf { s.fulfil i r with pending := .cancelling todo } := by
  have hall := h.collected
  rw [hp] at hall
  refine { h.fulfil (hall i List.mem_cons_self) r with collected := ?_ }
  exact fun j hj => hall j (List.mem_cons_of_mem i hj)

theorem stopBegins (h : Wf s) : Wf { s with stop := true, stopper := .joining } := by
  refine { h with exited := ?_, stopping := Or.inr rfl, joined := ?_, drained := ?_ }
  · exact fun hc => ⟨rfl, (h.exited hc).2⟩
  · intro hj
    rcases hj with hj | hj <;> cases hj
  · intro hd
    cases hd

/-- a stopper that is past `stopBegin` has set the flag -/
theorem stopped (h : Wf s) (hs : s.stopper ≠ .idle) : s.stop = true := h.stopping.resolve_left hs

theorem joins (h : Wf s) (hs : s.stopper = .joining) (hc : s.consumer = .exited) :
    Wf { s with stopper := if s.mode = .asyncNonBlocking then .awaiting else .returned } := by
  refine { h with stopping := ?_, joined := fun _ => hc, drained := ?_ }
  · refine Or.inr (h.stopped ?_)
    rw [hs]
    exact Stopper.noConfusion
  · intro hd
    have hd' : (if s.mode = .asyncNonBlocking then Stopper.awaiting else .returned)
      = .returned := hd
    cases hm : s.mode with
    | serialBlocking => exact h.serial hm
    | asyncNonBlocking =>
      rw [hm] at hd'
      cases hd'

theorem awaits (h : Wf s) (hs : s.stopper = .awaiting) (hi : s.inflight = 0) :
    Wf { s with stopper := .returned } := by
  refine { h with stopping := ?_, joined := ?_, drained := ?_ }
  · refine Or.inr (h.stopped ?_)
    rw [hs]
    exact Stopper.noConfusion
  · exact fun _ => h.joined (Or.inl hs)
  · intro _
    have hcount := h.count
    rw [hi] at hcount
    have hzero : s.inflightToks.length = 0 := by omega
    exact List.length_eq_zero_iff.mp hzero

/-- **Every step keeps the bookkeeping.** -/
theorem step (h : Wf s) {a : Act σ} (hs : Step s a s') : Wf s' := by
  cases hs with
  | submit hs => exact h.push hs _ _ _
  | accept hs _ => exact h.push hs _ _ _
  | reject _ _ => exact h
  | cancel hi => exact h.cancels hi
  | cancelFulfil hi => exact h.cancelFulfils hi _
  | pop hc hq _ => exact h.pop hc hq
  | exit hc hq hs => exact h.exits hc hq hs
  | begins hc _ => exact h.begins hc _
  | skips hc _ => exact h.skips hc
  | starts hc _ => exact h.starts hc
  | registers hc hh => exact h.registers hc (fun hm => hh (Or.inl hm))
  | launch hc => exact h.launch hc
  | ends hv _ =>
    refine h.setSvc ?_ (fun _ hh => by cases hh)
    rw [hv]
    exact Option.some_ne_none _
  | effect hv _ _ => exact h.effects hv _ _ _
  | markFinished hv => exact h.serves hv _ (fun hh => by cases hh)
  | setHere _ hc => exact h.retire hc _
  | setThere hv hc => exact h.setThere hv hc _
  | release hv => exact h.release hv
  | clearTok hc => exact h.clearTok hc
  | clearActive hc => exact h.clearActive hc
  | collect _ => exact { h with collected := fun i hi => h.pendingToks_lt hi }
  | cpCancel hp => exact h.cpCancels hp
  | cpFulfil hp => exact h.cpFulfils hp _
  | cpReturn _ => exact { h with collected := fun i hi => absurd hi List.not_mem_nil }
  | stopBegin _ => exact h.stopBegins
  | join hs hc => exact h.joins hs hc
  | awaitInflight hs hi => exact h.awaits hs hi

end Wf

/-- every reachable lane is well formed -/
theorem wf_reach {actorId : String} {mode : LaneMode} {maxInflight : Int} {st : σ} {s : Lane σ}
    (h : Reach Lane.step (create actorId mode maxInflight st) s) : Wf s :=
  h.inv (fun _ _ _ hw hs => hw.step (step_sound hs)) (wf_create actorId mode maxInflight st)

end Lane

end

end RayX
