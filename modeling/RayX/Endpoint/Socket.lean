import Mathlib.Data.List.Basic
import RayX.Lib.Await

/-!
# One end of a socket

`poll_until`, `full_read` and `full_write` of `endpoint_transport.hpp`, over whatever the kernel
answers to the system calls.  An answer that has not come yet leaves the call waiting.

* `PollAnswer`, `MoveAnswer`   what `poll`, and `read` or `send`, return;
* `readLoop`, `writeLoop`      the two loops, with the bytes they moved;
* `Carried`                    what a loop does, whichever way it ends: `readLoop_carried`,
                               `writeLoop_carried`;
* `Ample`                      answers enough for the loops to return;
* `Sock`                       the stream of the other side, what was read of it and what was sent;
* `Sock.wp_fullRead`, `Sock.wp_fullWrite`   **the two functions by their specification**.
-/

namespace RayX
open Sys

/-! ## the kernel -/

inductive PollAnswer where
  | ready
  | timedOut
  | interrupted
  | failed
  deriving DecidableEq

/-- a number of bytes, or an `errno`: `EINTR`, `EAGAIN` or `EWOULDBLOCK`, `ECONNRESET`, `EPIPE`,
any other -/
inductive MoveAnswer where
  | moved (n : Nat)
  | interrupted
  | again
  | reset
  | brokenPipe
  | failed
  deriving DecidableEq

inductive IoResult where
  | ok
  | timeout
  | closed
  | error
  deriving DecidableEq

/-- an answer that neither ends the wait nor reports an error -/
def PollAnswer.calm : PollAnswer → Bool
  | .ready | .interrupted => true
  | .timedOut | .failed => false

/-- an answer that moves a byte or asks to try again -/
def MoveAnswer.calm : MoveAnswer → Bool
  | .moved n => n != 0
  | .interrupted | .again => true
  | .reset | .brokenPipe | .failed => false

/-! ## the loops -/

/-- `1` ready, `0` timeout, `-1` error; and the answers behind it -/
def pollUntil : List PollAnswer → Option (Int × List PollAnswer)
  | [] => none
  | .interrupted :: polls => pollUntil polls
  | .failed :: polls => some (-1, polls)
  | .timedOut :: polls => some (0, polls)
  | .ready :: polls => some (1, polls)

/-- how a loop went: `none` while it waits, the bytes it moved, the answers it left -/
structure Moved where
  result : Option IoResult
  bytes : List UInt8
  polls : List PollAnswer
  moves : List MoveAnswer

/-- the poll at the head of a round; `k` is the round once the descriptor is ready -/
def pollThen (polls : List PollAnswer) (moves : List MoveAnswer) (k : List PollAnswer → Moved) :
    Moved :=
  match pollUntil polls with
  | none => ⟨none, [], [], moves⟩
  | some (pr, polls) =>
    if pr = 0 then ⟨some .timeout, [], polls, moves⟩
    else if pr < 0 then ⟨some .error, [], polls, moves⟩
    else k polls

/-- `full_read` with `n` bytes to go -/
def readLoop : List MoveAnswer → List PollAnswer → Nat → List UInt8 → Moved
  | moves, polls, 0, _ => ⟨some .ok, [], polls, moves⟩
  | moves, polls, n + 1, inbox =>
    pollThen polls moves fun polls =>
      match moves with
      | [] => ⟨none, [], polls, []⟩
      | .moved k :: moves =>
        let r := inbox.take (min k (n + 1))
        -- EOF
        if r = [] then ⟨some .closed, [], polls, moves⟩
        else
          let m := readLoop moves polls (n + 1 - r.length) (inbox.drop r.length)
          { m with bytes := r ++ m.bytes }
      | .interrupted :: moves => readLoop moves polls (n + 1) inbox
      | .again :: moves => readLoop moves polls (n + 1) inbox
      | .reset :: moves => ⟨some .closed, [], polls, moves⟩
      | .brokenPipe :: moves => ⟨some .closed, [], polls, moves⟩
      | .failed :: moves => ⟨some .error, [], polls, moves⟩

/-- `full_write` with `buf` to go; a `send` of nothing is tried again -/
def writeLoop : List MoveAnswer → List PollAnswer → List UInt8 → Moved
  | moves, polls, [] => ⟨some .ok, [], polls, moves⟩
  | moves, polls, b :: buf =>
    pollThen polls moves fun polls =>
      match moves with
      | [] => ⟨none, [], polls, []⟩
      | .moved k :: moves =>
        let m := writeLoop moves polls ((b :: buf).drop k)
        { m with bytes := (b :: buf).take k ++ m.bytes }
      | .interrupted :: moves => writeLoop moves polls (b :: buf)
      | .again :: moves => writeLoop moves polls (b :: buf)
      | .reset :: moves => ⟨some .closed, [], polls, moves⟩
      | .brokenPipe :: moves => ⟨some .closed, [], polls, moves⟩
      | .failed :: moves => ⟨some .error, [], polls, moves⟩

/-! ## what a loop does -/

theorem all_tail {α : Type} {f : α → Bool} {a : α} {l : List α} (h : (a :: l).all f = true) :
    l.all f = true := by
  rw [List.all_cons, Bool.and_eq_true] at h
  exact h.2

/-- a calm kernel wakes every poll -/
theorem pollUntil_calm {polls polls' : List PollAnswer} {pr : Int}
    (h : pollUntil polls = some (pr, polls')) (hc : polls.all PollAnswer.calm = true) :
    pr = 1 ∧ polls'.all PollAnswer.calm = true := by
  induction polls with
  | nil => cases h
  | cons p polls ih =>
    rw [List.all_cons, Bool.and_eq_true] at hc
    cases p with
    | interrupted => exact ih h hc.2
    | ready =>
      cases h
      exact ⟨rfl, hc.2⟩
    | timedOut => cases hc.1
    | failed => cases hc.1

/-- **A loop that has `n` bytes of `src` to move** from the answers `polls` and `moves`. -/
structure Carried (polls : List PollAnswer) (moves : List MoveAnswer) (n : Nat) (src : List UInt8)
    (m : Moved) : Prop where
  split : ∃ rest, src = m.bytes ++ rest
  le : m.bytes.length ≤ n
  ok : m.result = some .ok ↔ m.bytes.length = n
  /-- it waits for the kernel and for nothing else -/
  waits : m.result = none → m.polls = [] ∨ m.moves = []
  calm : polls.all PollAnswer.calm = true → moves.all MoveAnswer.calm = true →
    m.polls.all PollAnswer.calm = true ∧ m.moves.all MoveAnswer.calm = true ∧
    (m.result = none ∨ m.result = some .ok ∨ m.bytes = src)

section
variable {polls : List PollAnswer} {moves : List MoveAnswer} {n : Nat} {src : List UInt8}

theorem Carried.done {m : Moved} (h0 : m.bytes = []) (hok : m.result = some .ok)
    (hp : m.polls = polls) (hm : m.moves = moves) : Carried polls moves 0 src m where
  split := ⟨src, by rw [h0, List.nil_append]⟩
  le := by simp [h0]
  ok := by simp [h0, hok]
  waits h := by simp [hok] at h
  calm hcp hcm := by
    rw [hp, hm]
    exact ⟨hcp, hcm, Or.inr (Or.inl hok)⟩

/-- a loop that ends with an error, or waits, before it moves anything; a calm kernel does the first
only at the end of the stream -/
theorem Carried.stop {m : Moved} (h0 : m.bytes = []) (hok : m.result ≠ some .ok)
    (hw : m.result = none → m.polls = [] ∨ m.moves = [])
    (hc : polls.all PollAnswer.calm = true → moves.all MoveAnswer.calm = true →
      m.polls.all PollAnswer.calm = true ∧ m.moves.all MoveAnswer.calm = true ∧
      (m.result = none ∨ src = [])) : Carried polls moves (n + 1) src m where
  split := ⟨src, by rw [h0, List.nil_append]⟩
  le := by simp [h0]
  ok := by simp [h0, hok]
  waits := hw
  calm hcp hcm := by
    obtain ⟨hp, hm, hend⟩ := hc hcp hcm
    refine ⟨hp, hm, ?_⟩
    rcases hend with hend | hend
    · exact Or.inl hend
    · exact Or.inr (Or.inr (by rw [h0, hend]))

theorem Carried.pollThen {k : List PollAnswer → Moved}
    (h : ∀ polls', Carried polls' moves (n + 1) src (k polls')) :
    Carried polls moves (n + 1) src (pollThen polls moves k) := by
  unfold RayX.pollThen
  rcases hp : pollUntil polls with _ | ⟨pr, polls'⟩
  · exact .stop rfl (by simp) (fun _ => Or.inl rfl) fun _ hm => ⟨rfl, hm, Or.inl rfl⟩
  · dsimp only
    by_cases h0 : pr = 0
    · rw [if_pos h0]
      exact .stop rfl (by simp) (by simp) fun hcp _ => by
        have := (pollUntil_calm hp hcp).1
        omega
    · by_cases h1 : pr < 0
      · rw [if_neg h0, if_pos h1]
        exact .stop rfl (by simp) (by simp) fun hcp _ => by
          have := (pollUntil_calm hp hcp).1
          omega
      · rw [if_neg h0, if_neg h1]
        exact { h polls' with
          calm := fun hcp hcm => (h polls').calm (pollUntil_calm hp hcp).2 hcm }

/-- the answer `a` moved nothing and the loop went on -/
theorem Carried.retry {m : Moved} (a : MoveAnswer) (h : Carried polls moves n src m) :
    Carried polls (a :: moves) n src m :=
  { h with calm := fun hcp hcm => h.calm hcp (all_tail hcm) }

/-- the answer `a` ended the loop -/
theorem Carried.fail {a : MoveAnswer} {r : IoResult} (hr : r ≠ .ok)
    (ha : a.calm = true → src = []) :
    Carried polls (a :: moves) (n + 1) src ⟨some r, [], polls, moves⟩ := by
  refine .stop rfl (by simpa using hr) (by simp) fun hcp hcm => ?_
  rw [List.all_cons, Bool.and_eq_true] at hcm
  exact ⟨hcp, hcm.2, Or.inr (ha hcm.1)⟩

/-- no answer yet -/
theorem Carried.wait : Carried polls [] (n + 1) src ⟨none, [], polls, []⟩ :=
  .stop rfl (by simp) (fun _ => Or.inr rfl) fun hcp hcm => ⟨hcp, hcm, Or.inl rfl⟩

/-- a loop after the first `bs` -/
theorem Carried.more {m : Moved} (bs : List UInt8) (h : Carried polls moves n src m) :
    Carried polls moves (bs.length + n) (bs ++ src) { m with bytes := bs ++ m.bytes } where
  split := by
    obtain ⟨rest, hrest⟩ := h.split
    exact ⟨rest, by rw [List.append_assoc, ← hrest]⟩
  le := by
    have := h.le
    simp only [List.length_append]
    omega
  ok := by
    rw [h.ok]
    simp
  waits := h.waits
  calm hcp hcm := by
    obtain ⟨hp, hm, hend⟩ := h.calm hcp hcm
    refine ⟨hp, hm, ?_⟩
    rcases hend with hend | hend | hend
    · exact Or.inl hend
    · exact Or.inr (Or.inl hend)
    · exact Or.inr (Or.inr (by rw [hend]))

end

theorem readLoop_carried (moves : List MoveAnswer) (polls : List PollAnswer) (n : Nat)
    (inbox : List UInt8) : Carried polls moves n inbox (readLoop moves polls n inbox) := by
  induction moves generalizing polls n inbox with
  | nil =>
    cases n with
    | zero => exact .done rfl rfl rfl rfl
    | succ n => exact .pollThen fun _ => .wait
  | cons a moves ih =>
    cases n with
    | zero => exact .done rfl rfl rfl rfl
    | succ n =>
      unfold readLoop
      refine .pollThen fun polls => ?_
      cases a with
      | moved k =>
        dsimp only
        by_cases hr : inbox.take (min k (n + 1)) = []
        · rw [if_pos hr]
          refine .fail (by simp) fun hk => ?_
          -- a calm kernel gives nothing only when nothing is left
          have hk' : k ≠ 0 := by simpa [MoveAnswer.calm] using hk
          rcases List.take_eq_nil_iff.mp hr with h0 | h0
          · omega
          · exact h0
        · rw [if_neg hr]
          have hlen : (inbox.take (min k (n + 1))).length ≤ n + 1 := by
            rw [List.length_take]
            omega
          have hmore := ((ih polls (n + 1 - (inbox.take (min k (n + 1))).length)
            (inbox.drop (inbox.take (min k (n + 1))).length)).more
            (inbox.take (min k (n + 1)))).retry (.moved k)
          have hsrc : inbox.take (min k (n + 1)) ++
              inbox.drop (inbox.take (min k (n + 1))).length = inbox :=
            List.prefix_iff_eq_append.mp (List.take_prefix _ _)
          rw [hsrc, Nat.add_sub_cancel' hlen] at hmore
          exact hmore
      | interrupted => exact (ih polls (n + 1) inbox).retry _
      | again => exact (ih polls (n + 1) inbox).retry _
      | reset => exact .fail (by simp) (by simp [MoveAnswer.calm])
      | brokenPipe => exact .fail (by simp) (by simp [MoveAnswer.calm])
      | failed => exact .fail (by simp) (by simp [MoveAnswer.calm])

theorem writeLoop_carried (moves : List MoveAnswer) (polls : List PollAnswer) (buf : List UInt8) :
    Carried polls moves buf.length buf (writeLoop moves polls buf) := by
  induction moves generalizing polls buf with
  | nil =>
    cases buf with
    | nil => exact .done rfl rfl rfl rfl
    | cons b buf => exact .pollThen fun _ => .wait
  | cons a moves ih =>
    cases buf with
    | nil => exact .done rfl rfl rfl rfl
    | cons b buf =>
      unfold writeLoop
      refine .pollThen fun polls => ?_
      cases a with
      | moved k =>
        have hmore := ((ih polls ((b :: buf).drop k)).more ((b :: buf).take k)).retry (.moved k)
        rw [List.take_append_drop, ← List.length_append, List.take_append_drop] at hmore
        exact hmore
      | interrupted => exact (ih polls (b :: buf)).retry _
      | again => exact (ih polls (b :: buf)).retry _
      | reset => exact .fail (by simp) (by simp [MoveAnswer.calm])
      | brokenPipe => exact .fail (by simp) (by simp [MoveAnswer.calm])
      | failed => exact .fail (by simp) (by simp [MoveAnswer.calm])

/-! ## enough answers -/

/-- a byte moved -/
def MoveAnswer.moves : MoveAnswer → Bool
  | .moved n => n != 0
  | _ => false

/-- the answers let a loop move `n` bytes: a verdict of `poll` for every call, and enough bytes -/
def Ample (polls : List PollAnswer) (moves : List MoveAnswer) (n : Nat) : Prop :=
  moves.length ≤ polls.countP (· != .interrupted) ∧ n ≤ moves.countP MoveAnswer.moves

/-- a loop that returned, and after a success left enough for `n` more bytes -/
def Moved.Returns (m : Moved) (n : Nat) : Prop :=
  m.result ≠ none ∧ (m.result = some .ok → Ample m.polls m.moves n)

theorem pollUntil_some {polls : List PollAnswer} (h : 0 < polls.countP (· != .interrupted)) :
    ∃ pr polls', pollUntil polls = some (pr, polls') ∧
      polls.countP (· != .interrupted) = polls'.countP (· != .interrupted) + 1 := by
  induction polls with
  | nil => simp at h
  | cons p polls ih =>
    cases p with
    | interrupted => exact ih h
    | ready => exact ⟨1, polls, rfl, by rw [List.countP_cons]; rfl⟩
    | timedOut => exact ⟨0, polls, rfl, by rw [List.countP_cons]; rfl⟩
    | failed => exact ⟨-1, polls, rfl, by rw [List.countP_cons]; rfl⟩

theorem returns_error {r : IoResult} {bytes : List UInt8} {polls : List PollAnswer}
    {moves : List MoveAnswer} {n : Nat} (h : r ≠ .ok) :
    Moved.Returns ⟨some r, bytes, polls, moves⟩ n := by
  refine ⟨by simp, fun hr => ?_⟩
  cases hr
  exact absurd rfl h

theorem pollThen_returns {polls : List PollAnswer} {moves : List MoveAnswer}
    {k : List PollAnswer → Moved} {n : Nat} (hw : 0 < polls.countP (· != .interrupted))
    (h : ∀ polls', polls.countP (· != .interrupted) = polls'.countP (· != .interrupted) + 1 →
      (k polls').Returns n) : (pollThen polls moves k).Returns n := by
  obtain ⟨pr, polls', hp, hcount⟩ := pollUntil_some hw
  unfold pollThen
  rw [hp]
  dsimp only
  split
  · exact returns_error (by simp)
  · split
    · exact returns_error (by simp)
    · exact h polls' hcount

theorem readLoop_returns {moves : List MoveAnswer} {polls : List PollAnswer} {n : Nat}
    (inbox : List UInt8) {j : Nat} (h : Ample polls moves (n + j)) :
    (readLoop moves polls n inbox).Returns j := by
  induction moves generalizing polls n inbox with
  | nil =>
    cases n with
    | zero => exact ⟨by simp [readLoop], fun _ => ⟨h.1, by simpa [readLoop] using h.2⟩⟩
    | succ n =>
      have := h.2
      simp at this
  | cons a moves ih =>
    cases n with
    | zero =>
      refine ⟨by simp [readLoop], fun _ => ⟨h.1, ?_⟩⟩
      have := h.2
      rw [Nat.zero_add] at this
      exact this
    | succ n =>
      obtain ⟨hlen, hbytes⟩ := h
      rw [List.length_cons] at hlen
      rw [List.countP_cons] at hbytes
      unfold readLoop
      refine pollThen_returns (by omega) fun polls hcount => ?_
      cases a with
      | moved k =>
        dsimp only
        by_cases hr : inbox.take (min k (n + 1)) = []
        · rw [if_pos hr]
          exact returns_error (by simp)
        · rw [if_neg hr]
          -- the bytes of this round are at least one
          have hpos : 0 < (inbox.take (min k (n + 1))).length := List.length_pos_iff.mpr hr
          have hone : (if MoveAnswer.moves (.moved k) = true then 1 else 0) ≤ 1 := by
            split <;> omega
          exact @ih polls (n + 1 - (inbox.take (min k (n + 1))).length) _ ⟨by omega, by omega⟩
      | interrupted => exact @ih polls (n + 1) inbox ⟨by omega, hbytes⟩
      | again => exact @ih polls (n + 1) inbox ⟨by omega, hbytes⟩
      | reset => exact returns_error (by simp)
      | brokenPipe => exact returns_error (by simp)
      | failed => exact returns_error (by simp)

theorem writeLoop_returns {moves : List MoveAnswer} {polls : List PollAnswer} {buf : List UInt8}
    {j : Nat} (h : Ample polls moves (buf.length + j)) : (writeLoop moves polls buf).Returns j := by
  induction moves generalizing polls buf with
  | nil =>
    cases buf with
    | nil => exact ⟨by simp [writeLoop], fun _ => ⟨h.1, by simpa [writeLoop] using h.2⟩⟩
    | cons b buf =>
      have := h.2
      simp at this
  | cons a moves ih =>
    cases buf with
    | nil =>
      refine ⟨by simp [writeLoop], fun _ => ⟨h.1, ?_⟩⟩
      have := h.2
      rw [List.length_nil, Nat.zero_add] at this
      exact this
    | cons b buf =>
      obtain ⟨hlen, hbytes⟩ := h
      rw [List.length_cons] at hlen
      rw [List.countP_cons] at hbytes
      unfold writeLoop
      refine pollThen_returns (by omega) fun polls hcount => ?_
      cases a with
      | moved k =>
        have hdrop : ((b :: buf).drop k).length + j ≤ moves.countP MoveAnswer.moves := by
          rw [List.length_drop]
          cases k with
          | zero => simpa [MoveAnswer.moves] using hbytes
          | succ k =>
            simp only [MoveAnswer.moves, List.length_cons] at hbytes ⊢
            simp at hbytes
            omega
        exact @ih polls ((b :: buf).drop k) ⟨by omega, hdrop⟩
      | interrupted => exact @ih polls (b :: buf) ⟨by omega, hbytes⟩
      | again => exact @ih polls (b :: buf) ⟨by omega, hbytes⟩
      | reset => exact returns_error (by simp)
      | brokenPipe => exact returns_error (by simp)
      | failed => exact returns_error (by simp)

/-! ## the socket -/

/-- the stream of the other side, as far as it is not read, and what moved so far -/
structure Sock where
  polls : List PollAnswer
  moves : List MoveAnswer
  inbox : List UInt8
  received : List UInt8 := []
  sent : List UInt8 := []

namespace Sock

/-- no deadline passes and no call fails -/
def Calm (s : Sock) : Prop :=
  s.polls.all PollAnswer.calm = true ∧ s.moves.all MoveAnswer.calm = true

/-- the kernel has no more answers to one of the two calls -/
def Waits (s : Sock) : Prop := s.polls = [] ∨ s.moves = []

/-- the kernel has answers enough for `n` more bytes -/
def Ample (s : Sock) (n : Nat) : Prop := RayX.Ample s.polls s.moves n

theorem Ample.mono {s : Sock} {m n : Nat} (h : s.Ample n) (hle : m ≤ n) : s.Ample m :=
  ⟨h.1, Nat.le_trans hle h.2⟩

def afterRead (s : Sock) (m : Moved) : Sock :=
  { s with polls := m.polls, moves := m.moves, inbox := s.inbox.drop m.bytes.length,
           received := s.received ++ m.bytes }

def afterWrite (s : Sock) (m : Moved) : Sock :=
  { s with polls := m.polls, moves := m.moves, sent := s.sent ++ m.bytes }

/-- `full_read`, with the buffer it filled -/
def fullRead (n : Nat) : Await Sock (IoResult × List UInt8) := fun s =>
  let m := readLoop s.moves s.polls n s.inbox
  (m.result.map fun r => (r, m.bytes), s.afterRead m)

def fullWrite (buf : List UInt8) : Await Sock IoResult := fun s =>
  let m := writeLoop s.moves s.polls buf
  (m.result, s.afterWrite m)

/-- **`full_read` by its specification**: it waits, or has failed before the `n` bytes were there, or
has exactly these bytes; only a kernel that is not calm makes it fail before the end of the stream -/
theorem wp_fullRead {n : Nat} {Q : Option (IoResult × List UInt8) → Sock → Prop} {s : Sock}
    (hstop : ∀ r s' bs, r ≠ some .ok → bs.length < n →
      s'.received = s.received ++ bs → s.inbox = bs ++ s'.inbox → s'.sent = s.sent →
      (r = none → s'.Waits) → (s.Calm → s'.Calm ∧ (r ≠ none → s'.inbox = [])) →
      (s.Ample n → r ≠ none) → Q (r.map fun r => (r, bs)) s')
    (hok : ∀ s' bs, bs.length = n →
      s'.received = s.received ++ bs → s.inbox = bs ++ s'.inbox → s'.sent = s.sent →
      (s.Calm → s'.Calm) → (∀ j, s.Ample (n + j) → s'.Ample j) →
      Q (some (.ok, bs)) s') : (fullRead n).wp Q s := by
  have hret : ∀ j, s.Ample (n + j) → (readLoop s.moves s.polls n s.inbox).Returns j :=
    fun j h => readLoop_returns s.inbox h
  obtain ⟨⟨rest, hrest⟩, hle, hiff, hwaits, hcalm⟩ := readLoop_carried s.moves s.polls n s.inbox
  show Q ((readLoop s.moves s.polls n s.inbox).result.map _)
    (s.afterRead (readLoop s.moves s.polls n s.inbox))
  generalize readLoop s.moves s.polls n s.inbox = m at hret hrest hle hiff hwaits hcalm
  have hdrop : s.inbox.drop m.bytes.length = rest := by rw [hrest, List.drop_left]
  have hsplit : s.inbox = m.bytes ++ (s.afterRead m).inbox := by
    rw [afterRead, hdrop]
    exact hrest
  by_cases h : m.result = some .ok
  · rw [h]
    exact hok _ _ (hiff.mp h) rfl hsplit rfl
      (fun hc => ⟨(hcalm hc.1 hc.2).1, (hcalm hc.1 hc.2).2.1⟩) fun j ha => (hret j ha).2 h
  · have hlt : m.bytes.length < n := Nat.lt_of_le_of_ne hle fun hn => h (hiff.mpr hn)
    refine hstop _ _ _ h hlt rfl hsplit rfl hwaits (fun hc => ?_) fun ha => (hret 0 ha).1
    obtain ⟨hp, hm, hend⟩ := hcalm hc.1 hc.2
    refine ⟨⟨hp, hm⟩, fun hr => ?_⟩
    rcases hend with hend | hend | hend
    · exact absurd hend hr
    · exact absurd hend h
    · show s.inbox.drop m.bytes.length = []
      rw [hend, List.drop_length]

/-- **`full_write` by its specification** -/
theorem wp_fullWrite {buf : List UInt8} {Q : Option IoResult → Sock → Prop} {s : Sock}
    (h : ∀ r s' bs, bs <+: buf → (r = some .ok ↔ bs = buf) →
      s'.received = s.received → s'.inbox = s.inbox → s'.sent = s.sent ++ bs →
      (r = none → s'.Waits) → (s.Calm → s'.Calm ∧ (r ≠ none → r = some .ok)) →
      (s.Ample buf.length → r ≠ none) → Q r s') : (fullWrite buf).wp Q s := by
  have hret : s.Ample buf.length → (writeLoop s.moves s.polls buf).result ≠ none :=
    fun h => (writeLoop_returns (j := 0) h).1
  obtain ⟨⟨rest, hrest⟩, hle, hiff, hwaits, hcalm⟩ := writeLoop_carried s.moves s.polls buf
  show Q (writeLoop s.moves s.polls buf).result (s.afterWrite (writeLoop s.moves s.polls buf))
  generalize writeLoop s.moves s.polls buf = m at hret hrest hle hiff hwaits hcalm
  have hall : m.bytes.length = buf.length ↔ m.bytes = buf := by
    constructor
    · intro hlen
      rw [hrest, List.length_append] at hlen
      have hnil : rest = [] := List.length_eq_zero_iff.mp (by omega)
      rw [hrest, hnil, List.append_nil]
    · intro heq
      rw [heq]
  refine h _ _ m.bytes ⟨rest, hrest.symm⟩ (hiff.trans hall) rfl rfl rfl hwaits (fun hc => ?_) hret
  obtain ⟨hp, hm, hend⟩ := hcalm hc.1 hc.2
  refine ⟨⟨hp, hm⟩, fun hr => ?_⟩
  rcases hend with hend | hend | hend
  · exact absurd hend hr
  · exact hend
  · exact hiff.mpr (by rw [hend])

end Sock

end RayX
