import RayX.Lib.Signed
import RayX.Bridge.Remote

/-!
# The deadline of a dial

`poll_until` with the clock it reads and the argument it gives to `poll`, and the three clients that
pass one deadline to every wait: `transport_probe`, `ping_remote` and `call_op_remote`.

* `PollCall`, `Lawful`     a call of `poll` with the clock around it, and what its manual promises;
* `Timed.pollUntil`        the loop, which recomputes the budget and narrows it to an `int`;
* `Line`                   a socket, its clock and the log of the arguments;
* `Line.io`                the loops of a socket under a deadline;
* `Client`                 the clients over a `Line`;
* `Honoured`               every argument means the rest of the budget, no timeout comes early;
* `deadline_honoured_iff`  **the deadline is honoured exactly for budgets that fit an `int`**.
-/

namespace RayX
open Sys

/-! ## the clock -/

/-- one call of `poll`: `steady_clock` before it, in nanoseconds, its answer, and the clock when it
returns -/
structure PollCall where
  now : Int64
  answer : PollAnswer
  back : Int64
  deriving DecidableEq

/-- `mono_ms` at a reading of the clock -/
def monoMs (now : Int64) : Int64 := now / 1000000

/-- the third argument of `poll`; `none` is a difference that a `long` does not hold -/
def pollArg (deadline now : Int64) : Option Int32 :=
  (subS deadline (monoMs now)).map fun rem => (if rem < 0 then 0 else rem).toInt32

/-- `mono_ms() + timeout_ms` -/
def deadlineMs (start timeoutMs : Int64) : Option Int64 := addS (monoMs start) timeoutMs

/-- the clock does not go back, and `poll` answers `0` only after a timeout that is not negative -/
def Lawful (deadline : Int64) : Int64 → List PollCall → Prop
  | _, [] => True
  | t, c :: calls => t ≤ c.now ∧ c.now ≤ c.back ∧
    (c.answer = .timedOut → ∀ arg, pollArg deadline c.now = some arg →
      0 ≤ arg.toInt ∧ c.now.toInt + arg.toInt * 1000000 ≤ c.back.toInt) ∧
    Lawful deadline c.back calls

/-- a call and its argument -/
abbrev PollLog := List (PollCall × Option Int32)

def logOf (deadline : Int64) (calls : List PollCall) : PollLog :=
  calls.map fun c => (c, pollArg deadline c.now)

/-- `poll_until`: its result, the calls it did not make and the log of those it made -/
def Timed.pollUntil (deadline : Int64) : List PollCall → Option Int × List PollCall × PollLog
  | [] => (none, [], [])
  | c :: calls =>
    let entry := (c, pollArg deadline c.now)
    match c.answer with
    | .interrupted =>
      let r := Timed.pollUntil deadline calls
      (r.1, r.2.1, entry :: r.2.2)
    | .failed => (some (-1), calls, [entry])
    | .timedOut => (some 0, calls, [entry])
    | .ready => (some 1, calls, [entry])

/-! ## a socket on a clock -/

structure Line where
  calls : List PollCall
  moves : List MoveAnswer
  inbox : List UInt8
  received : List UInt8 := []
  sent : List UInt8 := []
  log : PollLog := []

namespace Line

/-- the socket without its clock -/
def sock (l : Line) : Sock :=
  { polls := l.calls.map PollCall.answer, moves := l.moves, inbox := l.inbox,
    received := l.received, sent := l.sent }

def pollUntil (deadline : Int64) : Await Line Int := fun l =>
  let r := Timed.pollUntil deadline l.calls
  (r.1, { l with calls := r.2.1, log := l.log ++ r.2.2 })

/-- `full_read` or `full_write` under a deadline: each `poll` it has used was given the budget at
that time -/
def io {α : Type} (deadline : Int64) (m : Await Sock α) : Await Line α := fun l =>
  let r := m l.sock
  let used := l.calls.length - r.2.polls.length
  (r.1,
    { calls := l.calls.drop used, moves := r.2.moves, inbox := r.2.inbox, received := r.2.received,
      sent := r.2.sent, log := l.log ++ logOf deadline (l.calls.take used) })

end Line

/-! ## the clients -/

inductive DialErr where
  | nameTooLong
  | inProgress
  | timedOut
  | other (errno : Nat)
  deriving DecidableEq

/-- what the system calls of `dial_unix` answer; `none` is no error -/
structure Dial where
  fits : Bool := true
  socket : Option DialErr := none
  nonblocking : Option DialErr := none
  connect : Option DialErr := none
  pollErrno : DialErr := .other 0
  getsockopt : Option DialErr := none
  soError : Option DialErr := none

/-- `none` is a connected descriptor -/
def dialUnix (d : Dial) (deadline : Int64) : Await Line (Option DialErr) :=
  if d.fits = false then pure (some .nameTooLong)
  else if d.socket ≠ none then pure d.socket
  else if d.nonblocking ≠ none then pure d.nonblocking
  else if d.connect ≠ some .inProgress then pure d.connect
  else do
    let pr ← Line.pollUntil deadline
    if pr = 0 then pure (some .timedOut)
    else if pr < 0 then pure (some d.pollErrno)
    else if d.getsockopt ≠ none then pure d.getsockopt
    else pure d.soError

/-- `0` ok, `5` timeout, `6` unreachable -/
def transportProbe (d : Dial) (deadline : Int64) : Await Line Int := do
  match ← dialUnix d deadline with
  | none => pure 0
  | some .timedOut => pure 5
  | some _ => pure 6

/-- dial, write, read and close -/
def roundTrip (d : Dial) (req : List UInt8) (respSize : Nat) (deadline : Int64) :
    Await Line RoundTrip := do
  match ← dialUnix d deadline with
  | some err => pure (.failed (err == .timedOut))
  | none => do
    let w ← Line.io deadline (Sock.fullWrite req)
    if w ≠ .ok then pure (.failed (w == .timeout))
    else do
      let (rr, resp) ← Line.io deadline (Sock.fullRead respSize)
      if rr ≠ .ok then pure (.failed (rr == .timeout)) else pure (.reply resp)

inductive Client where
  | probe
  | ping (peerId : List UInt8) (junk : Junk) (nonce : Int64)
  | callOp (peerId : List UInt8) (junk : Junk) (opCode : Int) (args : List CallOpArg)

/-- the status that a client returns to Python -/
def Client.status (d : Dial) (deadline : Int64) : Client → Await Line Int
  | .probe => transportProbe d deadline
  | .ping peerId junk nonce => do
    let rt ← roundTrip d (wireEncodeRequest endpointProtoVersion peerId nonce (junk.bytes wireReqSize))
      wireRespSize deadline
    pure (pingRemote peerId junk (fun _ => rt) nonce).1
  | .callOp peerId junk opCode args => do
    let rt ← roundTrip d (callOpRequest peerId junk opCode args) wireCallopRespSize deadline
    pure (callOpRemote peerId junk (fun _ => rt) opCode args).status

/-! ## the untimed socket -/

/-- without its clock the loop is that of the socket -/
theorem timed_pollUntil (deadline : Int64) (calls : List PollCall) :
    pollUntil (calls.map PollCall.answer) = (Timed.pollUntil deadline calls).1.map
      fun pr => (pr, (Timed.pollUntil deadline calls).2.1.map PollCall.answer) := by
  induction calls with
  | nil => rfl
  | cons c calls ih =>
    obtain ⟨now, answer, back⟩ := c
    cases answer with
    | interrupted => exact ih
    | failed => rfl
    | timedOut => rfl
    | ready => rfl

theorem pollUntil_suffix {polls polls' : List PollAnswer} {pr : Int}
    (h : pollUntil polls = some (pr, polls')) : polls' <:+ polls := by
  induction polls with
  | nil => cases h
  | cons p polls ih =>
    cases p with
    | interrupted => exact (ih h).trans (List.suffix_cons _ _)
    | ready =>
      cases h
      exact List.suffix_cons _ _
    | timedOut =>
      cases h
      exact List.suffix_cons _ _
    | failed =>
      cases h
      exact List.suffix_cons _ _

theorem pollThen_suffix {polls : List PollAnswer} {moves : List MoveAnswer}
    {k : List PollAnswer → Moved} (h : ∀ polls', (k polls').polls <:+ polls') :
    (pollThen polls moves k).polls <:+ polls := by
  unfold pollThen
  rcases hp : pollUntil polls with _ | ⟨pr, polls'⟩
  · exact List.nil_suffix
  · dsimp only
    split
    · exact pollUntil_suffix hp
    · split
      · exact pollUntil_suffix hp
      · exact (h polls').trans (pollUntil_suffix hp)

theorem readLoop_suffix (moves : List MoveAnswer) (polls : List PollAnswer) (n : Nat)
    (inbox : List UInt8) : (readLoop moves polls n inbox).polls <:+ polls := by
  induction moves generalizing polls n inbox with
  | nil =>
    cases n with
    | zero => exact List.suffix_rfl
    | succ n => exact pollThen_suffix fun polls => List.suffix_rfl
  | cons a moves ih =>
    cases n with
    | zero => exact List.suffix_rfl
    | succ n =>
      unfold readLoop
      refine pollThen_suffix fun polls => ?_
      cases a with
      | moved k =>
        dsimp only
        split
        · exact List.suffix_rfl
        · exact ih polls _ _
      | interrupted => exact ih polls _ _
      | again => exact ih polls _ _
      | reset => exact List.suffix_rfl
      | brokenPipe => exact List.suffix_rfl
      | failed => exact List.suffix_rfl

theorem writeLoop_suffix (moves : List MoveAnswer) (polls : List PollAnswer) (buf : List UInt8) :
    (writeLoop moves polls buf).polls <:+ polls := by
  induction moves generalizing polls buf with
  | nil =>
    cases buf with
    | nil => exact List.suffix_rfl
    | cons b buf => exact pollThen_suffix fun polls => List.suffix_rfl
  | cons a moves ih =>
    cases buf with
    | nil => exact List.suffix_rfl
    | cons b buf =>
      unfold writeLoop
      refine pollThen_suffix fun polls => ?_
      cases a with
      | moved k => exact ih polls _
      | interrupted => exact ih polls _
      | again => exact ih polls _
      | reset => exact List.suffix_rfl
      | brokenPipe => exact List.suffix_rfl
      | failed => exact List.suffix_rfl

/-- a call that leaves an end of the answers is the same call with the clock -/
theorem Line.io_sock {α : Type} (deadline : Int64) {m : Await Sock α} {l : Line}
    (h : (m l.sock).2.polls <:+ l.sock.polls) :
    (Line.io deadline m l).1 = (m l.sock).1 ∧ (Line.io deadline m l).2.sock = (m l.sock).2 := by
  refine ⟨rfl, ?_⟩
  have hdrop := List.suffix_iff_eq_drop.mp h
  have hlen : l.sock.polls.length = l.calls.length := List.length_map _
  rw [hlen] at hdrop
  have hpolls : (l.calls.drop (l.calls.length - (m l.sock).2.polls.length)).map PollCall.answer
      = (m l.sock).2.polls := by
    rw [List.map_drop]
    exact hdrop.symm
  show Sock.mk _ _ _ _ _ = _
  rw [Line.io, hpolls]

/-- **The loops on a clock are the loops of the socket.** -/
theorem fullRead_sock (deadline : Int64) (n : Nat) (l : Line) :
    (Line.io deadline (Sock.fullRead n) l).1 = (Sock.fullRead n l.sock).1 ∧
      (Line.io deadline (Sock.fullRead n) l).2.sock = (Sock.fullRead n l.sock).2 :=
  Line.io_sock deadline (readLoop_suffix _ _ _ _)

theorem fullWrite_sock (deadline : Int64) (buf : List UInt8) (l : Line) :
    (Line.io deadline (Sock.fullWrite buf) l).1 = (Sock.fullWrite buf l.sock).1 ∧
      (Line.io deadline (Sock.fullWrite buf) l).2.sock = (Sock.fullWrite buf l.sock).2 :=
  Line.io_sock deadline (writeLoop_suffix _ _ _)

/-! ## the log -/

/-- the run from `l` to `l'` made the calls `used` under one deadline -/
def Polled (deadline : Int64) (l l' : Line) : Prop :=
  ∃ used, l.calls = used ++ l'.calls ∧ l'.log = l.log ++ logOf deadline used

section
variable {deadline : Int64} {l l' l'' : Line} {α β : Type}

theorem Polled.refl (deadline : Int64) (l : Line) : Polled deadline l l :=
  ⟨[], rfl, (List.append_nil _).symm⟩

theorem Polled.trans (h : Polled deadline l l') (h' : Polled deadline l' l'') :
    Polled deadline l l'' := by
  obtain ⟨used, hcalls, hlog⟩ := h
  obtain ⟨used', hcalls', hlog'⟩ := h'
  refine ⟨used ++ used', ?_, ?_⟩
  · rw [hcalls, hcalls', List.append_assoc]
  · rw [hlog', hlog, logOf, logOf, logOf, List.map_append, List.append_assoc]

/-- a result `0` is an answer `0` of the last call -/
theorem timed_pollUntil_log (deadline : Int64) (calls : List PollCall) :
    ∃ used, calls = used ++ (Timed.pollUntil deadline calls).2.1 ∧
      (Timed.pollUntil deadline calls).2.2 = logOf deadline used ∧
      ((Timed.pollUntil deadline calls).1 = some 0 →
        used.getLast?.map PollCall.answer = some .timedOut) := by
  induction calls with
  | nil => exact ⟨[], rfl, rfl, fun h => by cases h⟩
  | cons c calls ih =>
    obtain ⟨now, answer, back⟩ := c
    cases answer with
    | interrupted =>
      obtain ⟨used, hcalls, hlog, hzero⟩ := ih
      refine ⟨⟨now, .interrupted, back⟩ :: used, congrArg (_ :: ·) hcalls,
        congrArg (_ :: ·) hlog, fun h => ?_⟩
      have hlast := hzero h
      cases used with
      | nil => cases hlast
      | cons c' used => exact hlast
    | failed => exact ⟨[⟨now, .failed, back⟩], rfl, rfl, fun h => by simp [Timed.pollUntil] at h⟩
    | timedOut => exact ⟨[⟨now, .timedOut, back⟩], rfl, rfl, fun _ => rfl⟩
    | ready => exact ⟨[⟨now, .ready, back⟩], rfl, rfl, fun h => by simp [Timed.pollUntil] at h⟩

theorem Line.pollUntil_polled : Polled deadline l (Line.pollUntil deadline l).2 := by
  obtain ⟨used, hcalls, hlog, _⟩ := timed_pollUntil_log deadline l.calls
  exact ⟨used, hcalls, congrArg (l.log ++ ·) hlog⟩

theorem Line.io_polled (m : Await Sock α) : Polled deadline l (Line.io deadline m l).2 :=
  ⟨_, (List.take_append_drop _ _).symm, rfl⟩

/-- a computation that gives every `poll` the budget of one deadline -/
def Polls (deadline : Int64) (m : Await Line α) : Prop := ∀ l, Polled deadline l (m l).2

theorem Polls.pure (a : α) : Polls deadline (pure a : Await Line α) := fun l => .refl deadline l

theorem Polls.bind {m : Await Line α} {f : α → Await Line β} (hm : Polls deadline m)
    (hf : ∀ a, Polls deadline (f a)) : Polls deadline (m >>= f) := by
  intro l
  refine Await.wp_bind (Q := fun _ l' => Polled deadline l l') ?_
  show Await.bindPost _ f (m l).1 (m l).2
  cases (m l).1 with
  | none => exact hm l
  | some a => exact (hm l).trans (hf a _)

theorem Polls.ite {c : Prop} [Decidable c] {m m' : Await Line α} (h : Polls deadline m)
    (h' : Polls deadline m') : Polls deadline (if c then m else m') := by
  split
  · exact h
  · exact h'

theorem dialUnix_polls (d : Dial) : Polls deadline (dialUnix d deadline) :=
  .ite (.pure _) (.ite (.pure _) (.ite (.pure _) (.ite (.pure _)
    (.bind (fun _ => Line.pollUntil_polled) fun _ =>
      .ite (.pure _) (.ite (.pure _) (.ite (.pure _) (.pure _)))))))

theorem transportProbe_polls (d : Dial) : Polls deadline (transportProbe d deadline) := by
  refine .bind (dialUnix_polls d) fun r => ?_
  cases r with
  | none => exact .pure _
  | some err =>
    cases err with
    | timedOut => exact .pure _
    | nameTooLong => exact .pure _
    | inProgress => exact .pure _
    | other errno => exact .pure _

theorem roundTrip_polls (d : Dial) (req : List UInt8) (respSize : Nat) :
    Polls deadline (roundTrip d req respSize deadline) := by
  refine .bind (dialUnix_polls d) fun r => ?_
  cases r with
  | some err => exact .pure _
  | none =>
    refine .bind (fun _ => Line.io_polled _) fun w => .ite (.pure _) ?_
    exact .bind (fun _ => Line.io_polled _) fun r => .ite (.pure _) (.pure _)

theorem status_polls (k : Client) (d : Dial) : Polls deadline (k.status d deadline) := by
  cases k with
  | probe => exact transportProbe_polls d
  | ping peerId junk nonce => exact .bind (roundTrip_polls d _ _) fun _ => .pure _
  | callOp peerId junk opCode args => exact .bind (roundTrip_polls d _ _) fun _ => .pure _

end

/-! ## the budget -/

/-- a call of `poll` that keeps the deadline -/
structure InTime (deadline : Int64) (e : PollCall × Option Int32) : Prop where
  /-- the argument is what is left, never a negative number and never more -/
  rest : ∃ arg, e.2 = some arg ∧ arg.toInt = max 0 (deadline.toInt - e.1.now.toInt / 1000000)
  /-- the answer on which `poll_until` reports `0` comes after the deadline -/
  due : e.1.answer = .timedOut → deadline.toInt ≤ e.1.back.toInt / 1000000

/-- a client honours its timeout: the deadline is the sum, and every wait keeps it -/
def Honoured (start timeoutMs : Int64) (k : Client) (d : Dial) (l : Line) : Prop :=
  ∃ deadline, deadlineMs start timeoutMs = some deadline ∧
    deadline.toInt = start.toInt / 1000000 + timeoutMs.toInt ∧
    ∀ e ∈ (k.status d deadline l).2.log, InTime deadline e

/-- an I/O history that the clock and the kernel can give to a client that starts at `start` -/
structure History (start timeoutMs : Int64) (l : Line) : Prop where
  epoch : 0 ≤ start.toInt
  fresh : l.log = []
  lawful : ∀ deadline, deadlineMs start timeoutMs = some deadline → Lawful deadline start l.calls

theorem toInt_monoMs {now : Int64} (h : 0 ≤ now.toInt) :
    (monoMs now).toInt = now.toInt / 1000000 := toInt_div_of_nonneg h (by decide)

theorem toInt_exact {x : Int} (h : InRange x) : ∃ v, exact x = some v ∧ v.toInt = x :=
  ⟨Int64.ofInt x, if_pos h, Int64.toInt_ofInt_of_le h.1 h.2⟩

/-- a budget that fits an `int` keeps its meaning -/
theorem pollArg_fits {deadline now : Int64} (h0 : 0 ≤ now.toInt)
    (hlo : 0 ≤ deadline.toInt)
    (h : deadline.toInt - now.toInt / 1000000 ≤ 2147483647) :
    ∃ arg, pollArg deadline now = some arg ∧
      arg.toInt = max 0 (deadline.toInt - now.toInt / 1000000) := by
  have hnow := Int64.toInt_lt now
  have hrange : InRange (deadline.toInt - (monoMs now).toInt) := by
    rw [toInt_monoMs h0]
    constructor <;> omega
  obtain ⟨rem, hrem, hval⟩ := toInt_exact hrange
  rw [toInt_monoMs h0] at hval
  refine ⟨(if rem < 0 then 0 else rem).toInt32, by rw [pollArg, subS, hrem]; rfl, ?_⟩
  have hzero : (0 : Int64).toInt = 0 := rfl
  by_cases hneg : rem < 0
  · have hneg' : rem.toInt < 0 := Int64.lt_iff_toInt_lt.mp hneg
    rw [if_pos hneg, max_eq_left (by omega)]
    rfl
  · have hneg' : 0 ≤ rem.toInt := by
      rw [Int64.lt_iff_toInt_lt, hzero] at hneg
      omega
    rw [if_neg hneg, max_eq_right (by omega), Int64.toInt_toInt32, ← hval]
    exact Int.bmod_eq_of_le (by omega) (by omega)

/-- a call that does not time out -/
theorem Lawful.cons {deadline t : Int64} {c : PollCall} {calls : List PollCall} (h : t ≤ c.now)
    (h' : c.now ≤ c.back) (ha : c.answer ≠ .timedOut) (hcalls : Lawful deadline c.back calls) :
    Lawful deadline t (c :: calls) := ⟨h, h', fun hout => absurd hout ha, hcalls⟩

/-- the calls of a lawful history come after its start, and time out after their argument -/
theorem Lawful.mem {deadline t : Int64} {calls : List PollCall} (h : Lawful deadline t calls)
    {c : PollCall} (hc : c ∈ calls) : t.toInt ≤ c.now.toInt ∧
      (c.answer = .timedOut → ∀ arg, pollArg deadline c.now = some arg →
        c.now.toInt + arg.toInt * 1000000 ≤ c.back.toInt) := by
  induction calls generalizing t with
  | nil => cases hc
  | cons c' calls ih =>
    obtain ⟨hnow, hback, hout, hrest⟩ := h
    have hnow' := Int64.le_iff_toInt_le.mp hnow
    have hback' := Int64.le_iff_toInt_le.mp hback
    rcases List.mem_cons.mp hc with rfl | hc
    · exact ⟨hnow', fun ha arg harg => (hout ha arg harg).2⟩
    · obtain ⟨hle, htime⟩ := ih hrest hc
      exact ⟨by omega, htime⟩

/-- **A deadline whose budget fits an `int` is kept by every call.** -/
theorem inTime_of_fits {start timeoutMs deadline : Int64} (h0 : 0 ≤ start.toInt)
    (ht : 1 ≤ timeoutMs.toInt) (hfit : timeoutMs.toInt ≤ 2147483647)
    (hsum : deadline.toInt = start.toInt / 1000000 + timeoutMs.toInt) {c : PollCall}
    (hc : start.toInt ≤ c.now.toInt)
    (hout : c.answer = .timedOut → ∀ arg, pollArg deadline c.now = some arg →
      c.now.toInt + arg.toInt * 1000000 ≤ c.back.toInt) :
    InTime deadline (c, pollArg deadline c.now) := by
  have hleft : deadline.toInt - c.now.toInt / 1000000 ≤ 2147483647 := by omega
  obtain ⟨arg, harg, hval⟩ := pollArg_fits (by omega) (by omega) hleft
  refine ⟨⟨arg, harg, hval⟩, fun ha => ?_⟩
  have hlate := hout ha arg harg
  show deadline.toInt ≤ c.back.toInt / 1000000
  have hle : deadline.toInt - c.now.toInt / 1000000 ≤ arg.toInt := by
    rw [hval]
    exact le_max_right _ _
  omega

/-- **The deadline is honoured for every I/O history exactly when `timeout_ms` fits an `int`.** -/
theorem deadline_honoured_iff (timeoutMs : Int64) (ht : 1 ≤ timeoutMs.toInt) :
    (∀ start k d l, History start timeoutMs l → Honoured start timeoutMs k d l) ↔
      timeoutMs.toInt ≤ 2147483647 := by
  constructor
  · intro hall
    -- the dial waits at the moment the deadline is computed, with the whole budget
    let c : PollCall := ⟨0, .interrupted, 0⟩
    obtain ⟨deadline, _, hsum, hlog⟩ := hall 0 .probe { connect := some .inProgress }
      { calls := [c], moves := [], inbox := [] }
      ⟨by decide, rfl, fun _ _ => .cons (by decide) (by decide) (by decide) trivial⟩
    obtain ⟨⟨arg, _, hval⟩, _⟩ := hlog (c, pollArg deadline 0) (List.mem_singleton_self _)
    have hfit := Int32.toInt_lt arg
    have hzero : (0 : Int64).toInt = 0 := rfl
    rw [hzero] at hsum
    have hnow : c.now.toInt = 0 := rfl
    rw [hnow] at hval
    omega
  · intro hfit start k d l hl
    have hms := toInt_monoMs hl.epoch
    have hstart := Int64.toInt_lt start
    have h0 := hl.epoch
    obtain ⟨deadline, hdl, hsum⟩ := toInt_exact
      (x := (monoMs start).toInt + timeoutMs.toInt) (by rw [hms]; constructor <;> omega)
    rw [hms] at hsum
    refine ⟨deadline, hdl, hsum, fun e he => ?_⟩
    obtain ⟨used, hcalls, hlog⟩ := status_polls k d l
    rw [hlog, hl.fresh, List.nil_append] at he
    obtain ⟨c, hc, rfl⟩ := List.mem_map.mp he
    have hmem : c ∈ l.calls := by
      rw [hcalls]
      exact List.mem_append_left _ hc
    obtain ⟨hle, hout⟩ := (hl.lawful deadline hdl).mem hmem
    exact inTime_of_fits hl.epoch ht hfit hsum hle hout

/-- a listener that answers at once, two seconds before the deadline -/
def promptLine : Line where
  calls := [⟨5000000000, .ready, 5000100000⟩, ⟨5000200000, .ready, 5000300000⟩]
  moves := [.moved 64, .moved 64]
  inbox := []

theorem deadline_honoured_seconds :
    Honoured 5000000000 2000 (.ping [] ⟨fun n => List.replicate n 0, fun _ => List.length_replicate⟩ 7)
      {} promptLine := by
  refine (deadline_honoured_iff 2000 (by decide)).mpr (by decide) _ _ _ _
    ⟨by decide, rfl, fun deadline h => ?_⟩
  cases h
  exact .cons (by decide) (by decide) (by decide)
    (.cons (by decide) (by decide) (by decide) trivial)

/-- a dial in progress that a signal interrupts -/
def signalLine : Line where
  calls := [⟨5000000000, .interrupted, 5000000000⟩]
  moves := []
  inbox := []

/-- a budget of `2 ^ 31` milliseconds becomes a negative argument, with which `poll` waits for ever -/
theorem deadline_narrowed : History 5000000000 2147483648 signalLine ∧
    (Client.probe.status { connect := some .inProgress } 2147488648 signalLine).2.log.map (·.2)
      = [some (-2147483648)] ∧
    ¬ Honoured 5000000000 2147483648 .probe { connect := some .inProgress } signalLine := by
  refine ⟨⟨by decide, rfl, fun deadline h => ?_⟩, by decide, ?_⟩
  · cases h
    exact .cons (by decide) (by decide) (by decide) trivial
  · rintro ⟨deadline, hdl, -, hlog⟩
    cases hdl
    obtain ⟨arg, harg, hval⟩ := (hlog _ (List.mem_singleton_self _)).rest
    cases harg
    revert hval
    decide

/-- one of `2 ^ 32 + 1` milliseconds is a wait of one, reported as a timeout -/
example : deadlineMs 5000000000 4294967297 = some 4294972297 ∧
    (Client.probe.status { connect := some .inProgress } 4294972297
      { calls := [⟨5000000000, .timedOut, 5001000000⟩], moves := [], inbox := [] }).1 = some 5 := by
  decide

end RayX
