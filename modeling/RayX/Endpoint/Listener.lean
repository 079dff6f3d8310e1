import RayX.Lib.Counter
import RayX.Lib.Run
import RayX.Lib.Table
import Mathlib.Data.List.Nodup
import Mathlib.Data.List.Perm.Subperm

/-!
# The transport listener

`TransportListener` of `endpoint_transport.hpp` with its share count `endpoint_transport_rc`, one
call after the other under `endpoint_transport_mu`.  The answers of the system calls are part of a
call (`StartEnv`), the table of open descriptors is part of the state.

* `Kernel`                 the open descriptors and the socket nodes; `open_` gives the lowest free
                           number;
* `start`, `stop`          the two transitions of the listener, every failure with its own cleanup;
* `acquire`, `release`, `sweep`   the share count over it;
* `Serving`, `Idle`        a listener that is served, and one of which nothing is left;
* `listener_lifecycle`     **every call leaves a positive share count exactly on a served listener
                           and a failed one leaves everything as it was, as long as the accept
                           thread can be spawned whenever `start` comes to it and no acquire
                           finds the share count at its last value**.
-/

namespace RayX
open Sys

abbrev Errno := Nat

/-- what an open descriptor is -/
inductive Fd where
  | socket
  | bound (path : String)
  | listening (path : String)
  | pipeRead
  | pipeWrite
  | foreign
  deriving DecidableEq, Repr

/-! ## descriptors and socket nodes -/

structure Kernel where
  fds : List (Int × Fd) := []
  nodes : String → Bool := fun _ => false

namespace Kernel

/-- the entry under a number -/
def at_ (k : Kernel) (n : Int) : Option Fd := k.fds.lookup n

def isOpen (k : Kernel) (fd : Int) : Bool := k.fds.any (·.1 == fd)

def lowest (k : Kernel) : Int :=
  Int.ofNat (((List.range (k.fds.length + 1)).find? (fun n => !k.isOpen (Int.ofNat n))).getD 0)

/-- the new descriptor has the lowest number that is not open -/
def open_ (k : Kernel) (fd : Fd) : Int × Kernel := (k.lowest, { k with fds := (k.lowest, fd) :: k.fds })

def set (k : Kernel) (n : Int) (fd : Fd) : Kernel :=
  { k with fds := k.fds.map (fun e => if e.1 = n then (n, fd) else e) }

def close (k : Kernel) (n : Int) : Kernel := { k with fds := k.fds.filter (fun e => e.1 ≠ n) }

def link (k : Kernel) (path : String) : Kernel :=
  { k with nodes := fun p => p == path || k.nodes p }

def unlink (k : Kernel) (path : String) : Kernel :=
  { k with nodes := fun p => p != path && k.nodes p }

/-! the entry of the newest descriptor -/

section
variable {fds : List (Int × Fd)} {n : Int} {fd fd' : Fd}

/-- a number that no entry has -/
def Fresh (fds : List (Int × Fd)) (n : Int) : Prop := ∀ e ∈ fds, e.1 ≠ n

theorem Fresh.filter (h : Fresh fds n) : fds.filter (fun e => e.1 ≠ n) = fds :=
  List.filter_eq_self.mpr (fun e he => decide_eq_true (h e he))

theorem lowest_fresh (k : Kernel) : Fresh k.fds k.lowest := by
  -- more numbers are tried than are taken
  obtain ⟨m, hm, hfree⟩ : ∃ m ∈ List.range (k.fds.length + 1), k.isOpen (Int.ofNat m) = false := by
    by_contra hall
    have htaken : (List.range (k.fds.length + 1)).map Int.ofNat ⊆ k.fds.map (·.1) := by
      intro x hx
      obtain ⟨m, hm, rfl⟩ := List.mem_map.mp hx
      have hopen : k.isOpen (Int.ofNat m) = true := by
        by_contra hc
        exact hall ⟨m, hm, (Bool.not_eq_true _).mp hc⟩
      obtain ⟨e, he, hem⟩ := List.any_eq_true.mp hopen
      exact List.mem_map.mpr ⟨e, he, beq_iff_eq.mp hem⟩
    have hnodup : ((List.range (k.fds.length + 1)).map Int.ofNat).Nodup :=
      List.Nodup.map (fun a b h => Int.ofNat.inj h) List.nodup_range
    have hlen := (List.subperm_of_subset hnodup htaken).length_le
    rw [List.length_map, List.length_map, List.length_range] at hlen
    omega
  unfold lowest
  cases hf : (List.range (k.fds.length + 1)).find? (fun n => !k.isOpen (Int.ofNat n)) with
  | none =>
    have := List.find?_eq_none.mp hf m hm
    rw [hfree] at this
    exact absurd rfl this
  | some x =>
    have hx : k.isOpen (Int.ofNat x) = false := by
      have := List.find?_some hf
      exact (Bool.not_eq_true' _).mp this
    intro e he heq
    have hopen : k.isOpen (Int.ofNat x) = true :=
      List.any_eq_true.mpr ⟨e, he, beq_iff_eq.mpr heq⟩
    rw [hx] at hopen
    cases hopen

theorem set_newest {k : Kernel} (hk : k.fds = (n, fd) :: fds) (h : Fresh fds n) :
    (k.set n fd').fds = (n, fd') :: fds := by
  have hrest : fds.map (fun e => if e.1 = n then (n, fd') else e) = fds := by
    conv_rhs => rw [← List.map_id fds]
    refine List.map_congr_left (fun e he => ?_)
    exact if_neg (h e he)
  rw [set, hk]
  dsimp only
  rw [List.map_cons, hrest, if_pos rfl]

theorem close_newest {k : Kernel} (hk : k.fds = (n, fd) :: fds) (h : Fresh fds n) :
    (k.close n).fds = fds := by
  rw [close, hk]
  dsimp only
  rw [List.filter_cons, if_neg (by simp)]
  exact h.filter

end

end Kernel

/-! ## the environment of a start -/

structure Stat where
  isDir : Bool
  uid : Nat
  /-- group or world bits are set -/
  loose : Bool

/-- what the process and the system answer during one `start` -/
structure StartEnv where
  sockDirEnv : Option String := none
  pid : Nat
  euid : Nat
  sunPathSize : Nat
  strerror : Errno → String
  mkdir : Option Errno := none
  chmod : Option Errno := none
  lstat : Except Errno Stat
  lstatAgain : Except Errno Stat
  socket : Option Errno := none
  bind : Option Errno := none
  listen : Option Errno := none
  pipe : Option Errno := none
  /-- `what()` of the exception of the constructor of `std::thread` -/
  spawn : Option String := none

namespace StartEnv

def eexist : Errno := 17

def sockDir (env : StartEnv) : String :=
  match env.sockDirEnv with
  | some e => if e ≠ "" then e else "/tmp/rayx-ep"
  | none => "/tmp/rayx-ep"

def failed (env : StartEnv) (what : String) (e : Errno) : String :=
  "endpoint transport: " ++ what ++ " failed: " ++ env.strerror e

def ensureSockDir (env : StartEnv) (dir : String) : Except String Unit :=
  match env.mkdir with
  | none =>
    match env.chmod with
    | none => .ok ()
    | some e => .error (env.failed ("chmod(" ++ dir ++ ", 0700)") e)
  | some e =>
    if e ≠ eexist then .error (env.failed ("mkdir(" ++ dir ++ ")") e)
    else
      match env.lstat with
      | .error e => .error (env.failed ("lstat(" ++ dir ++ ")") e)
      | .ok st =>
        if !st.isDir then
          .error ("endpoint transport: socket dir " ++ dir ++ " exists but is not a directory")
        else if st.uid ≠ env.euid then
          .error ("endpoint transport: socket dir " ++ dir ++
            " is not owned by the current uid (refusing it)")
        else if st.loose then
          match env.chmod with
          | some e => .error ("endpoint transport: socket dir " ++ dir ++
              " is group/world accessible and chmod 0700 failed: " ++ env.strerror e)
          | none =>
            match env.lstatAgain with
            | .ok st =>
              if st.loose then .error ("endpoint transport: socket dir " ++ dir ++
                " could not be made owner-only (0700)")
              else .ok ()
            | .error _ => .error ("endpoint transport: socket dir " ++ dir ++
                " could not be made owner-only (0700)")
        else .ok ()

def sockPath (env : StartEnv) : String := env.sockDir ++ "/ep-" ++ toString env.pid ++ ".sock"

/-- every step before the spawn succeeds -/
def opens (env : StartEnv) : Prop :=
  env.ensureSockDir env.sockDir = .ok () ∧ env.sockPath.utf8ByteSize + 1 ≤ env.sunPathSize ∧
    env.socket = none ∧ env.bind = none ∧ env.listen = none ∧ env.pipe = none

end StartEnv

/-! ## the listener -/

/-- `thread` is the joinable `thread_`, in `accept_loop` until it reads a byte from `wake_[0]` -/
structure TransportListener where
  running : Bool := false
  stopping : Bool := false
  thread : Bool := false
  listenFd : Int := -1
  wake : Int × Int := (-1, -1)
  path : String := ""

/-- `rc` is an `int`, which wraps around -/
structure Transport where
  kernel : Kernel := {}
  listener : TransportListener := {}
  rc : Int32 := 0

namespace Transport

def start (env : StartEnv) (t : Transport) : Except String String × Transport :=
  if t.listener.running then (.ok t.listener.path, t)
  else
    match env.ensureSockDir env.sockDir with
    | .error msg => (.error msg, t)
    | .ok () =>
      let path := env.sockPath
      if env.sunPathSize < path.utf8ByteSize + 1 then
        (.error ("endpoint transport: socket path too long (" ++ path ++
          "); set RAYX_ENDPOINT_SOCK_DIR shorter"), t)
      else
        match env.socket with
        | some e => (.error (env.failed "socket()" e), t)
        | none =>
          let (fd, k) := t.kernel.open_ .socket
          let k := k.unlink path
          match env.bind with
          | some e => (.error (env.failed "bind" e), { t with kernel := k.close fd })
          | none =>
            let k := (k.set fd (.bound path)).link path
            match env.listen with
            | some e => (.error (env.failed "listen" e),
                { t with kernel := (k.close fd).unlink path })
            | none =>
              let k := k.set fd (.listening path)
              match env.pipe with
              | some e => (.error (env.failed "pipe" e),
                  { t with kernel := (k.close fd).unlink path })
              | none =>
                let (r, k) := k.open_ .pipeRead
                let (w, k) := k.open_ .pipeWrite
                let l : TransportListener := { t.listener with
                  listenFd := fd
                  wake := (r, w)
                  path := path
                  stopping := false
                  running := true }
                -- `running_` is set before the constructor of `std::thread` can throw
                match env.spawn with
                | some what => (.error what, { t with kernel := k, listener := l })
                | none => (.ok path, { t with kernel := k, listener := { l with thread := true } })

/-- the stop byte ends `accept_loop`, so the join returns -/
def stop (t : Transport) : Transport :=
  if !t.listener.running then t
  else
    { t with
      kernel := (((t.kernel.close t.listener.listenFd).close t.listener.wake.1).close
        t.listener.wake.2).unlink t.listener.path
      listener := { running := false, stopping := true, thread := false } }

/-- `endpoint_transport_acquire` -/
def acquire (env : StartEnv) (t : Transport) : Except String String × Transport :=
  match t.start env with
  | (.ok path, t) => (.ok path, { t with rc := t.rc + 1 })
  | (.error msg, t) => (.error msg, t)

/-- `endpoint_transport_release` -/
def release (t : Transport) : Transport :=
  if 0 < t.rc then
    let t := { t with rc := t.rc - 1 }
    if t.rc = 0 then t.stop else t
  else t

/-- the transport part of `endpoint_shutdown` -/
def sweep (t : Transport) : Transport := if t.rc = 0 ∧ t.listener.running then t.stop else t

inductive Call where
  | acquire (env : StartEnv)
  | release
  | sweep

def step (t : Transport) : Call → Option Transport
  | .acquire env => some (t.acquire env).2
  | .release => some t.release
  | .sweep => some t.sweep

/-! ## served, or nothing left -/

/-- the accept thread runs, its socket listens on the path and the wake pipe is open -/
structure Serving (t : Transport) : Prop where
  running : t.listener.running = true
  thread : t.listener.thread = true
  listens : t.kernel.at_ t.listener.listenFd = some (.listening t.listener.path)
  wakeRead : t.kernel.at_ t.listener.wake.1 = some .pipeRead
  wakeWrite : t.kernel.at_ t.listener.wake.2 = some .pipeWrite
  node : t.kernel.nodes t.listener.path = true

/-- no thread, no path, and no descriptor besides the ones of the rest of the process -/
structure Idle (others : List (Int × Fd)) (t : Transport) : Prop where
  running : t.listener.running = false
  thread : t.listener.thread = false
  listenFd : t.listener.listenFd = -1
  wake : t.listener.wake = (-1, -1)
  path : t.listener.path = ""
  closed : t.kernel.fds = others

/-- what a call owes -/
structure Meets (others : List (Int × Fd)) (t : Transport) (c : Call) : Prop where
  served : ∀ t', t.step c = some t' → (t'.Serving ↔ 0 < t'.rc)
  idle : ∀ t', t.step c = some t' → ¬ 0 < t'.rc → t'.Idle others
  failed : ∀ env msg, c = .acquire env → (t.acquire env).1 = .error msg →
    (t.acquire env).2.rc = t.rc ∧ (t.acquire env).2.listener = t.listener ∧
      (t.acquire env).2.kernel.fds = t.kernel.fds
  acquired : ∀ env path, c = .acquire env → (t.acquire env).1 = .ok path →
    (t.acquire env).2.rc.toInt = t.rc.toInt + 1 ∧ (t.acquire env).2.Serving ∧
      (t.acquire env).2.listener.path = path
  last : c = .release → t.rc = 1 → t.release.rc = 0 ∧ t.release.Idle others

/-- the accept thread can be spawned whenever a `start` comes to it, and one more share can be counted -/
structure Goes (t : Transport) (c : Call) : Prop where
  spawns : ∀ env, c = .acquire env → t.listener.running = false → env.opens → env.spawn = none
  counts : ∀ env, c = .acquire env → t.rc.toInt < 2 ^ 31 - 1

/-! ## the two states between calls -/

/-- the three descriptors of a served listener, over the rest of the table -/
structure Up (others : List (Int × Fd)) (t : Transport) : Prop where
  running : t.listener.running = true
  thread : t.listener.thread = true
  table : t.kernel.fds = (t.listener.wake.2, .pipeWrite) :: (t.listener.wake.1, .pipeRead) ::
    (t.listener.listenFd, .listening t.listener.path) :: others
  freshListen : Kernel.Fresh others t.listener.listenFd
  freshRead : Kernel.Fresh ((t.listener.listenFd, Fd.listening t.listener.path) :: others)
    t.listener.wake.1
  freshWrite : Kernel.Fresh ((t.listener.wake.1, Fd.pipeRead) ::
    (t.listener.listenFd, .listening t.listener.path) :: others) t.listener.wake.2
  node : t.kernel.nodes t.listener.path = true

variable {others : List (Int × Fd)} {t t' : Transport}

/-- the three numbers are different -/
theorem Up.distinct (h : t.Up others) : t.listener.listenFd ≠ t.listener.wake.1 ∧
    t.listener.listenFd ≠ t.listener.wake.2 ∧ t.listener.wake.1 ≠ t.listener.wake.2 :=
  ⟨h.freshRead _ List.mem_cons_self, h.freshWrite _ (List.mem_cons_of_mem _ List.mem_cons_self),
    h.freshWrite _ List.mem_cons_self⟩

theorem Up.serving (h : t.Up others) : t.Serving := by
  obtain ⟨hrl, hwl, hwr⟩ := h.distinct
  refine ⟨h.running, h.thread, ?_, ?_, ?_, h.node⟩
  · rw [Kernel.at_, h.table, lookup_cons_ne hwl, lookup_cons_ne hrl,
      List.lookup_cons_self]
  · rw [Kernel.at_, h.table, lookup_cons_ne hwr, List.lookup_cons_self]
  · rw [Kernel.at_, h.table, List.lookup_cons_self]

/-- the share count is not part of it -/
theorem Up.share (h : t.Up others) (rc : Int32) : Up others { t with rc := rc } :=
  ⟨h.running, h.thread, h.table, h.freshListen, h.freshRead, h.freshWrite, h.node⟩

/-- a failure before the spawn leaves the listener and the table as they were -/
structure Undone (t t' : Transport) : Prop where
  rc : t'.rc = t.rc
  listener : t'.listener = t.listener
  fds : t'.kernel.fds = t.kernel.fds

/-- **What a `start` from nothing does.** -/
theorem start_cases (env : StartEnv) (h : t.Idle others) :
    (¬ env.opens ∧ ∃ msg t', t.start env = (.error msg, t') ∧ Undone t t') ∨
    (env.opens ∧ (∃ what, env.spawn = some what) ∧
      ∃ msg t', t.start env = (.error msg, t') ∧ t'.listener.running = true) ∨
    (env.opens ∧ env.spawn = none ∧
      ∃ t', t.start env = (.ok env.sockPath, t') ∧ t'.listener.path = env.sockPath ∧
        t'.rc = t.rc ∧ t'.Up others) := by
  have hrun : ¬ t.listener.running = true := by
    rw [h.running]
    exact Bool.false_ne_true
  unfold start
  rw [if_neg hrun]
  cases hdir : env.ensureSockDir env.sockDir with
  | error msg =>
    refine Or.inl ⟨?_, msg, t, rfl, rfl, rfl, rfl⟩
    intro ho
    rw [ho.1] at hdir
    cases hdir
  | ok u =>
    dsimp only
    by_cases hsize : env.sunPathSize < env.sockPath.utf8ByteSize + 1
    · rw [if_pos hsize]
      exact Or.inl ⟨fun ho => absurd ho.2.1 (Nat.not_le.mpr hsize), _, t, rfl, rfl, rfl, rfl⟩
    rw [if_neg hsize]
    cases hsock : env.socket with
    | some e =>
      refine Or.inl ⟨?_, _, t, rfl, rfl, rfl, rfl⟩
      intro ho
      rw [ho.2.2.1] at hsock
      cases hsock
    | none =>
      -- the socket has the number `fd`
      dsimp only [Kernel.open_]
      have hfd : Kernel.Fresh t.kernel.fds t.kernel.lowest := t.kernel.lowest_fresh
      generalize t.kernel.lowest = fd at hfd ⊢
      cases hbind : env.bind with
      | some e =>
        refine Or.inl ⟨?_, _, _, rfl, rfl, rfl, Kernel.close_newest rfl hfd⟩
        intro ho
        rw [ho.2.2.2.1] at hbind
        cases hbind
      | none =>
        dsimp only
        generalize hk : Kernel.link _ env.sockPath = k
        have hkb : k.fds = (fd, .bound env.sockPath) :: t.kernel.fds := by
          rw [← hk]
          exact Kernel.set_newest rfl hfd
        have hnode : k.nodes env.sockPath = true := by
          rw [← hk]
          exact Bool.or_eq_true_iff.mpr (Or.inl (beq_self_eq_true _))
        cases hlisten : env.listen with
        | some e =>
          refine Or.inl ⟨?_, _, _, rfl, rfl, rfl, Kernel.close_newest hkb hfd⟩
          intro ho
          rw [ho.2.2.2.2.1] at hlisten
          cases hlisten
        | none =>
          dsimp only
          have hkl : (k.set fd (.listening env.sockPath)).fds =
              (fd, .listening env.sockPath) :: t.kernel.fds := Kernel.set_newest hkb hfd
          cases hpipe : env.pipe with
          | some e =>
            refine Or.inl ⟨?_, _, _, rfl, rfl, rfl, Kernel.close_newest hkl hfd⟩
            intro ho
            rw [ho.2.2.2.2.2] at hpipe
            cases hpipe
          | none =>
            dsimp only
            have hopens : env.opens := ⟨hdir, Nat.not_lt.mp hsize, hsock, hbind, hlisten, hpipe⟩
            cases hspawn : env.spawn with
            | some what => exact Or.inr (Or.inl ⟨hopens, ⟨what, rfl⟩, what, _, rfl, rfl⟩)
            | none =>
              dsimp only
              refine Or.inr (Or.inr ⟨hopens, rfl, _, rfl, rfl, rfl, ?_⟩)
              have hr := Kernel.lowest_fresh (k.set fd (.listening env.sockPath))
              have hw := Kernel.lowest_fresh
                ((k.set fd (.listening env.sockPath)).open_ .pipeRead).2
              rw [h.closed] at hfd hkl
              constructor
              · rfl
              · rfl
              · show _ :: _ :: (k.set fd (.listening env.sockPath)).fds = _
                rw [hkl]
              · exact hfd
              · rw [← hkl]
                exact hr
              · rw [← hkl]
                exact hw
              · exact hnode

/-- **A `stop` of a served listener leaves nothing of it.** -/
theorem Up.stop (h : t.Up others) : t.stop.rc = t.rc ∧ t.stop.Idle others := by
  have hstop : t.stop = { t with
      kernel := (((t.kernel.close t.listener.listenFd).close t.listener.wake.1).close
        t.listener.wake.2).unlink t.listener.path
      listener := { running := false, stopping := true, thread := false } } := by
    unfold Transport.stop
    rw [h.running]
    rfl
  rw [hstop]
  refine ⟨rfl, rfl, rfl, rfl, rfl, rfl, ?_⟩
  obtain ⟨hrl, hwl, hwr⟩ := h.distinct
  have hread : Kernel.Fresh others t.listener.wake.1 :=
    fun e he => h.freshRead e (List.mem_cons_of_mem _ he)
  have hwrite : Kernel.Fresh others t.listener.wake.2 :=
    fun e he => h.freshWrite e (List.mem_cons_of_mem _ (List.mem_cons_of_mem _ he))
  show ((t.kernel.fds.filter _).filter _).filter _ = others
  rw [h.table]
  simp only [List.filter_cons, hrl.symm, hwl.symm, hwr.symm, ne_eq, not_true_eq_false,
    not_false_eq_true, decide_true, decide_false, if_true, Bool.false_eq_true, if_false]
  rw [h.freshListen.filter, hread.filter, hwrite.filter]

theorem Idle.not_serving (h : t.Idle others) : ¬ t.Serving := by
  intro hs
  have hr := hs.running
  rw [h.running] at hr
  cases hr

/-! ## the calls -/

/-- a served listener with shares, or nothing without -/
def Between (others : List (Int × Fd)) (t : Transport) : Prop :=
  (0 < t.rc.toInt ∧ t.Up others) ∨ (t.rc = 0 ∧ t.Idle others)

theorem Between.serving_iff (h : t.Between others) : t.Serving ↔ 0 < t.rc := by
  rcases h with ⟨hpos, hup⟩ | ⟨hzero, hidle⟩
  · exact iff_of_true hup.serving (int32_pos.mpr hpos)
  · refine iff_of_false hidle.not_serving ?_
    rw [hzero]
    decide

theorem Between.idle (h : t.Between others) (hz : ¬ 0 < t.rc) : t.Idle others := by
  rcases h with ⟨hpos, _⟩ | ⟨_, hidle⟩
  · exact absurd (int32_pos.mpr hpos) hz
  · exact hidle

theorem Between.share_nonneg (h : t.Between others) : 0 ≤ t.rc.toInt := by
  rcases h with ⟨hpos, _⟩ | ⟨hzero, _⟩
  · omega
  · exact Int.le_of_eq (int32_zero.mp hzero).symm

theorem acquire_running (env : StartEnv) (h : t.listener.running = true) :
    t.acquire env = (.ok t.listener.path, { t with rc := t.rc + 1 }) := by
  rw [acquire, start, if_pos h]

/-- **What an acquire does.** -/
theorem acquire_cases (env : StartEnv) (h : t.Between others) :
    (∃ msg, (t.acquire env).1 = .error msg ∧ Undone t (t.acquire env).2 ∧
      (t.listener.running = false → ¬ env.opens)) ∨
    (t.listener.running = false ∧ env.opens ∧ (∃ what, env.spawn = some what) ∧
      ∃ msg, (t.acquire env).1 = .error msg ∧ (t.acquire env).2.listener.running = true) ∨
    ((t.listener.running = false → env.opens → env.spawn = none) ∧
      (t.acquire env).1 = .ok (t.acquire env).2.listener.path ∧
      (t.acquire env).2.rc = t.rc + 1 ∧ (t.acquire env).2.Up others) := by
  rcases h with ⟨_, hup⟩ | ⟨_, hidle⟩
  · rw [acquire_running env hup.running]
    refine Or.inr (Or.inr ⟨?_, rfl, rfl, ?_⟩)
    · intro hr
      rw [hup.running] at hr
      cases hr
    · exact hup.share _
  · rcases start_cases env hidle with ⟨hno, msg, t', hs, hu⟩ | ⟨ho, hsp, msg, t', hs, hr⟩ |
      ⟨ho, hsp, t', hs, hpath, hrc, hup⟩
    · rw [acquire, hs]
      exact Or.inl ⟨msg, rfl, hu, fun _ => hno⟩
    · rw [acquire, hs]
      exact Or.inr (Or.inl ⟨hidle.running, ho, hsp, msg, rfl, hr⟩)
    · rw [acquire, hs]
      refine Or.inr (Or.inr ⟨fun _ _ => hsp, ?_, ?_, ?_⟩)
      · rw [← hpath]
      · show t'.rc + 1 = t.rc + 1
        rw [hrc]
      · exact hup.share _

theorem release_cases (h : t.Between others) :
    (t.rc = 1 ∧ t.release.rc = 0 ∧ t.release.Idle others) ∨ (t.rc ≠ 1 ∧ t.release.Between others) := by
  unfold release
  rcases h with ⟨hpos, hup⟩ | ⟨hzero, hidle⟩
  · rw [if_pos (int32_pos.mpr hpos)]
    by_cases hone : t.rc = 1
    · have hz : t.rc - 1 = 0 := by
        rw [hone]
        decide
      obtain ⟨hrc, hi⟩ := (hup.share (t.rc - 1)).stop
      dsimp only
      rw [if_pos hz]
      exact Or.inl ⟨hone, hrc.trans hz, hi⟩
    · have hpred := int32_pred hpos
      have hmore : t.rc.toInt ≠ 1 := fun hc => hone (Int32.toInt_inj.mp (hc.trans Int32.toInt_one.symm))
      have hz : t.rc - 1 ≠ 0 := fun hc => by
        have := int32_zero.mp hc
        omega
      dsimp only
      rw [if_neg hz]
      refine Or.inr ⟨hone, Or.inl ⟨?_, hup.share _⟩⟩
      show 0 < (t.rc - 1).toInt
      omega
  · rw [hzero, if_neg (by decide)]
    exact Or.inr ⟨by decide, Or.inr ⟨hzero, hidle⟩⟩

/-- the defensive stop of `endpoint_shutdown` finds nothing to stop -/
theorem sweep_between (h : t.Between others) : t.sweep = t := by
  refine if_neg ?_
  rintro ⟨hz, hr⟩
  have hi := h.idle (by rw [hz]; decide)
  rw [hi.running] at hr
  cases hr

theorem between_step (h : t.Between others) {c : Call} (hc : Goes t c)
    (hs : t.step c = some t') : t'.Between others := by
  cases c with
  | acquire env =>
    cases hs
    rcases acquire_cases env h with ⟨msg, _, hu, _⟩ | ⟨hr, ho, ⟨what, hsp⟩, _⟩ | ⟨_, _, hrc, hup⟩
    · rcases h with ⟨hpos, hup⟩ | ⟨hzero, hidle⟩
      · refine Or.inl ⟨by rw [hu.rc]; exact hpos, ?_⟩
        rw [acquire_running env hup.running]
        exact hup.share _
      · refine Or.inr ⟨by rw [hu.rc]; exact hzero, ?_⟩
        obtain ⟨h1, h2, h3, h4, h5, h6⟩ := hidle
        exact ⟨by rw [hu.listener]; exact h1, by rw [hu.listener]; exact h2,
          by rw [hu.listener]; exact h3, by rw [hu.listener]; exact h4,
          by rw [hu.listener]; exact h5, by rw [hu.fds]; exact h6⟩
    · rw [hc.spawns env rfl hr ho] at hsp
      cases hsp
    · refine Or.inl ⟨?_, hup⟩
      rw [hrc, int32_succ (hc.counts env rfl)]
      have := h.share_nonneg
      omega
  | release =>
    cases hs
    rcases release_cases h with ⟨_, hrc, hi⟩ | ⟨_, hb⟩
    · exact Or.inr ⟨hrc, hi⟩
    · exact hb
  | sweep =>
    cases hs
    rw [sweep_between h]
    exact h

/-- an acquire that meets its law had a thread to spawn, if it came to it -/
theorem Meets.spawns {env : StartEnv} (h : t.Between others) (hm : Meets others t (.acquire env))
    (hr : t.listener.running = false) (ho : env.opens) : env.spawn = none := by
  rcases acquire_cases env h with ⟨msg, _, _, hno⟩ | ⟨_, _, _, msg, he, hrun⟩ | ⟨hsp, _⟩
  · exact absurd ho (hno hr)
  · have hl := (hm.failed env msg rfl he).2.1
    rw [hl, hr] at hrun
    cases hrun
  · exact hsp hr ho

/-- at the last value of the share count the listener runs, and the acquire counts past it -/
theorem Meets.counts {env : StartEnv} (h : t.Between others) (hm : Meets others t (.acquire env)) :
    t.rc.toInt < 2 ^ 31 - 1 := by
  by_contra hlast
  rcases h with ⟨_, hup⟩ | ⟨hzero, _⟩
  · have hrun := acquire_running env hup.running
    have hrc := (hm.acquired env t.listener.path rfl (by rw [hrun])).1
    rw [hrun] at hrc
    have hwrap : (t.rc + 1).toInt = -2 ^ 31 := int32_wraps hlast
    rw [hwrap] at hrc
    omega
  · rw [int32_zero.mp hzero] at hlast
    omega

/-- **A call meets its law exactly when the spawn it comes to succeeds and the share can be counted.** -/
theorem meets_iff (h : t.Between others) (c : Call) : Meets others t c ↔ Goes t c := by
  constructor
  · intro hm
    constructor
    · rintro env rfl hr ho
      exact hm.spawns h hr ho
    · rintro env rfl
      exact hm.counts h
  · intro hc
    refine ⟨?_, ?_, ?_, ?_, ?_⟩
    · intro t' hs
      exact (between_step h hc hs).serving_iff
    · intro t' hs hz
      exact (between_step h hc hs).idle hz
    · rintro env msg rfl he
      rcases acquire_cases env h with ⟨_, _, hu, _⟩ | ⟨hr, ho, ⟨what, hsp⟩, _⟩ | ⟨_, hok, _⟩
      · exact ⟨hu.rc, hu.listener, hu.fds⟩
      · rw [hc.spawns env rfl hr ho] at hsp
        cases hsp
      · rw [hok] at he
        cases he
    · rintro env path rfl he
      rcases acquire_cases env h with ⟨_, hmsg, _⟩ | ⟨_, _, _, _, hmsg, _⟩ | ⟨_, hok, hrc, hup⟩
      · rw [hmsg] at he
        cases he
      · rw [hmsg] at he
        cases he
      · rw [hok] at he
        refine ⟨?_, hup.serving, Except.ok.inj he⟩
        rw [hrc]
        exact int32_succ (hc.counts env rfl)
    · rintro rfl hone
      rcases release_cases h with ⟨_, hrc, hi⟩ | ⟨hne, _⟩
      · exact ⟨hrc, hi⟩
      · exact absurd hone hne

/-- **Life of the listener.**  Over any calls, from any table of open descriptors, every call meets
its law if and only if the accept thread can be spawned whenever a `start` comes to it and no
acquire finds the share count at its last value. -/
theorem listener_lifecycle (k : Kernel) (calls : List Call) :
    stepsMeet step (Meets k.fds) { kernel := k } calls ↔ stepsMeet step Goes { kernel := k } calls := by
  refine stepsMeet_iff (I := Between k.fds) (fun t c h => meets_iff h c) ?_ ?_ calls
  · intro t c t' h hm hs
    exact between_step h ((meets_iff h c).mp hm) hs
  · exact Or.inr ⟨rfl, rfl, rfl, rfl, rfl, rfl, rfl⟩

/-- a start in which everything but the spawn succeeds -/
def spawnEnv (spawn : Option String) : StartEnv where
  pid := 7
  euid := 501
  sunPathSize := 108
  strerror := fun _ => ""
  lstat := .error 2
  lstatAgain := .error 2
  spawn := spawn

/-- the first endpoint cannot spawn the accept thread, the second one is given the path -/
def unservedRun : List Call :=
  [.acquire (spawnEnv (some "Resource temporarily unavailable")), .acquire (spawnEnv none)]

/-- an acquire may return the path of a listener that nobody serves -/
theorem listener_unserved : ¬ ∀ calls, stepsMeet step (Meets []) {} calls := by
  intro hall
  obtain ⟨_, hrest⟩ := hall unservedRun
  obtain ⟨hm, _⟩ := hrest _ rfl
  have hs := (hm.served _ rfl).mpr (show (0 : Int32) < 1 by decide)
  cases hs.thread

end Transport

end RayX
