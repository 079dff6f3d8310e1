import RayX.Endpoint.Metadata
import RayX.Endpoint.Deadline

/-!
# Connecting to a peer

`connect` of `endpoint/__init__.py` for any metadata object and any timeout object, with the two
native calls behind it.

* `Timeout`         what comes of `int(timeout * 1000)` and of printing the timeout;
* `connect`         the checks in their order, and the dispatch on the transport;
* `Documented`      the outcome that the documentation orders;
* `Typed`           `connect` ends with it;
* `Ordinary`        the objects for which nothing is raised outside the handler;
* `connect_typed_iff`   **the errors are typed exactly for these**.
-/

namespace RayX
open Sys

/-! ## the environment -/

/-- a timeout object: `int(timeout * 1000)` and `f"{timeout}"` -/
structure Timeout where
  millis : Except PyExc Int
  shown : Except PyExc String

/-- what `transport_probe` reports -/
inductive ProbeStatus where
  | ok
  | timeout
  | unreachable
  deriving DecidableEq

def connectOk : Int := 0
def connectTimeout : Int := 5
def connectUnreachable : Int := 6

def ProbeStatus.code : ProbeStatus → Int
  | .ok => connectOk
  | .timeout => connectTimeout
  | .unreachable => connectUnreachable

/-- the probe of a line has no other results -/
theorem transportProbe_code {d : Dial} {deadline : Int64} {l : Line} {c : Int}
    (h : (transportProbe d deadline l).1 = some c) : ∃ s : ProbeStatus, c = s.code := by
  have hcode : (transportProbe d deadline).wp (fun r _ => ∀ c, r = some c →
      ∃ s : ProbeStatus, c = s.code) l := by
    refine Await.wp_bind ?_
    show Await.bindPost _ _ (dialUnix d deadline l).1 (dialUnix d deadline l).2
    cases (dialUnix d deadline l).1 with
    | none =>
      intro c hc
      cases hc
    | some r =>
      cases r with
      | none =>
        intro c hc
        cases hc
        exact ⟨.ok, rfl⟩
      | some err =>
        cases err with
        | timedOut =>
          intro c hc
          cases hc
          exact ⟨.timeout, rfl⟩
        | nameTooLong =>
          intro c hc
          cases hc
          exact ⟨.unreachable, rfl⟩
        | inProgress =>
          intro c hc
          cases hc
          exact ⟨.unreachable, rfl⟩
        | other errno =>
          intro c hc
          cases hc
          exact ⟨.unreachable, rfl⟩
  exact hcode c h

/-- the process and the machine it runs on -/
structure ConnectEnv where
  py : PyText
  hostname : PyStr
  pid : Int
  reg : EndpointRegistry
  probe : List UInt8 → Int64 → ProbeStatus

/-- the native object of a `Connection` -/
inductive NativeConn where
  | inProcess (seam : EndpointSeam)
  | remote (path peerId : List UInt8) (timeoutMs : Int64)

/-- what leaves `connect` -/
inductive ConnectExc where
  | endpoint (e : EndpointErr)
  | python (e : PyExc)

/-! ## the code -/

/-- arguments that no overload takes -/
def incompatible {α : Type} (name : String) : Except ConnectExc α :=
  .error (.python (.typeError s!"{name}(): incompatible function arguments"))

def endpointConnectLocal (env : ConnectEnv) (peerId : PyStr) : Except ConnectExc (Option NativeConn) :=
  match utf8 peerId with
  | none => incompatible "_endpoint_connect_local"
  | some id => .ok ((env.reg.resolve id).map .inProcess)

def endpointConnectUnix (env : ConnectEnv) (peerId sockPath : PyStr) (timeoutMs : Int) :
    Except ConnectExc (Int × Option NativeConn) :=
  match utf8 peerId, utf8 sockPath, Sys.exact timeoutMs with
  | some id, some path, some ms =>
    let status := (env.probe path ms).code
    if status = 0 then .ok (0, some (.remote path id ms)) else .ok (status, none)
  | _, _, _ => incompatible "_endpoint_connect_unix"

/-- `str(e)` of the exceptions that the first handler catches -/
def PyExc.caught : PyExc → Option String
  | .typeError msg => some msg
  | .valueError msg => some msg
  | .other _ => none

/-- an `EndpointError` -/
def raiseAs {α : Type} (cls : EndpointClass) (msg : String) : Except ConnectExc α :=
  .error (.endpoint ⟨cls, msg⟩)

/-- an exception of the interpreter that no handler catches -/
def escape {α : Type} (x : Except PyExc α) : Except ConnectExc α := x.mapError .python

def connectUnix (env : ConnectEnv) (m : Metadata) (timeout : Timeout) :
    Except ConnectExc (Option NativeConn) := do
  let n ← escape timeout.millis
  let deadlineMs := max 1 n
  let (status, native) ← endpointConnectUnix env m.endpointId m.transportAddr deadlineMs
  if status = connectOk then .ok native
  else if status = connectTimeout then do
    let t ← escape timeout.shown
    raiseAs .timeout (s!"timed out connecting to peer endpoint {m.endpointId.text} "
      ++ s!"at {env.py.repr m.transportAddr} after {t}s")
  else if status = connectUnreachable then
    raiseAs .unreachable (s!"peer endpoint {m.endpointId.text} is not listening "
      ++ s!"at {env.py.repr m.transportAddr}")
  else raiseAs .error s!"unexpected connect status {status}"

/-- the dispatch on validated metadata -/
def connectValid (env : ConnectEnv) (m : Metadata) (timeout : Timeout) :
    Except ConnectExc (Option NativeConn) :=
  if m.protoVersion ≠ endpointProtoVersion then do
    let t ← escape (env.py.int m.protoVersion)
    raiseAs .protocol s!"peer proto_version {t} != this build's {endpointProtoVersion}"
  else if m.host ≠ env.hostname then
    raiseAs .unreachable (s!"peer endpoint {m.endpointId.text} is on another node "
      ++ s!"(host={env.py.repr m.host}); A1 is single-node only (no multi-node transport)")
  else if m.pid = env.pid then do
    match ← endpointConnectLocal env m.endpointId with
    | none => raiseAs .notFound s!"no live local endpoint {m.endpointId.text} registered in this process"
    | some native => .ok (some native)
  else if m.transportKind = lit "none" then
    raiseAs .unreachable (s!"peer endpoint {m.endpointId.text} is in another process with transport "
      ++ "disabled (transport_kind='none'); construct it with Endpoint(transport=True) to enable "
      ++ "cross-process delivery")
  else if m.transportKind = lit "unix" then connectUnix env m timeout
  else raiseAs .unreachable (s!"transport_kind {env.py.repr m.transportKind} is not supported in this "
    ++ "build (A1 implements 'unix')")

def connect (env : ConnectEnv) (peerMetadata : PyObject) (timeout : Timeout) :
    Except ConnectExc (Option NativeConn) :=
  match validateMetadata env.py peerMetadata with
  | .ok m => connectValid env m timeout
  | .error e =>
    match e.caught with
    | some msg => raiseAs .validation msg
    | none => .error (.python e)

/-! ## the documentation -/

/-- metadata as documented -/
def WellFormed (o : PyObject) (m : Metadata) : Prop :=
  ∃ d, o = .dict d ∧ Shape d m ∧ IdShape m.endpointId

inductive Outcome where
  | connection
  | fails (cls : EndpointClass)
  deriving DecidableEq

def ProbeStatus.outcome : ProbeStatus → Outcome
  | .ok => .connection
  | .timeout => .fails .timeout
  | .unreachable => .fails .unreachable

/-- the metadata of a peer in another process of this machine, reached over its socket -/
structure Dials (env : ConnectEnv) (m : Metadata) : Prop where
  proto : m.protoVersion = endpointProtoVersion
  host : m.host = env.hostname
  pid : m.pid ≠ env.pid
  kind : m.transportKind = lit "unix"

/-- the deadline and the path of a dial -/
structure DialArgs (m : Metadata) (timeout : Timeout) (path : List UInt8) (ms : Int64) : Prop where
  path : utf8 m.transportAddr = some path
  ms : ∃ n, timeout.millis = .ok n ∧ Sys.exact (max 1 n) = some ms

/-- the order of the documentation: malformed metadata, the protocol, another host, then the registry
of the process or the transport -/
inductive Documented (env : ConnectEnv) (o : PyObject) (timeout : Timeout) : Outcome → Prop
  | malformed (h : ∀ m, ¬ WellFormed o m) : Documented env o timeout (.fails .validation)
  | protocol {m : Metadata} (h : WellFormed o m) (hp : m.protoVersion ≠ endpointProtoVersion) :
    Documented env o timeout (.fails .protocol)
  | otherHost {m : Metadata} (h : WellFormed o m) (hp : m.protoVersion = endpointProtoVersion)
    (hh : m.host ≠ env.hostname) : Documented env o timeout (.fails .unreachable)
  | sameProcess {m : Metadata} {id : List UInt8} (h : WellFormed o m)
    (hp : m.protoVersion = endpointProtoVersion) (hh : m.host = env.hostname)
    (hpid : m.pid = env.pid) (hid : utf8 m.endpointId = some id) :
    Documented env o timeout
      (if (env.reg.resolve id).isSome then .connection else .fails .notFound)
  | noTransport {m : Metadata} (h : WellFormed o m) (hp : m.protoVersion = endpointProtoVersion)
    (hh : m.host = env.hostname) (hpid : m.pid ≠ env.pid) (hk : m.transportKind ≠ lit "unix") :
    Documented env o timeout (.fails .unreachable)
  | dialled {m : Metadata} {path : List UInt8} {ms : Int64} (h : WellFormed o m) (hd : Dials env m)
    (ha : DialArgs m timeout path ms) : Documented env o timeout (env.probe path ms).outcome

/-- how `connect` ended; `none` is another exception -/
def outcomeOf : Except ConnectExc (Option NativeConn) → Option Outcome
  | .ok _ => some .connection
  | .error (.endpoint e) => some (.fails e.cls)
  | .error (.python _) => none

/-- `connect` ends as documented -/
def Typed (env : ConnectEnv) (o : PyObject) (timeout : Timeout) : Prop :=
  ∃ out, Documented env o timeout out ∧ outcomeOf (connect env o timeout) = some out

/-- the objects for which nothing is raised outside the handler of the validator -/
structure Ordinary (env : ConnectEnv) (o : PyObject) (timeout : Timeout) : Prop where
  /-- wrong keys can be sorted and printed, or this fails with a `TypeError` or `ValueError` -/
  keys : ∀ d e, o = .dict d → d.hasKeys = false → d.sortedKeys = .error e → e.caught ≠ none
  /-- the id is not followed by a newline -/
  id : ∀ d m id, o = .dict d → Shape d m → IdShape id → m.endpointId ≠ id ++ [newlineChar]
  /-- a wrong version can be printed -/
  proto : ∀ m, WellFormed o m → m.protoVersion ≠ endpointProtoVersion →
    env.py.maxStrDigits = 0 ∨ m.protoVersion.natAbs < 10 ^ env.py.maxStrDigits
  /-- a dial has a path without lone surrogates, a number of milliseconds that fits a `long`, and a
  timeout that can be printed when it is over -/
  dial : ∀ m, WellFormed o m → Dials env m → ∃ path ms, DialArgs m timeout path ms ∧
    (env.probe path ms = .timeout → ∃ t, timeout.shown = .ok t)

/-! ## the handler of the validator -/

/-- a check whose exceptions the handler catches -/
def Mapped {α : Type} (x : Except PyExc α) : Prop := ∀ e, x = .error e → e.caught ≠ none

section
variable {α β : Type} {py : PyText} {d : PyDict}

theorem Mapped.bind {x : Except PyExc α} {f : α → Except PyExc β} (hx : Mapped x)
    (hf : ∀ a, Mapped (f a)) : Mapped (x >>= f) := by
  intro e he
  cases x with
  | error e' =>
    cases he
    exact hx _ rfl
  | ok a => exact hf a e he

theorem Mapped.ok (a : α) : Mapped (.ok a : Except PyExc α) := by
  intro e he
  cases he

theorem Mapped.error {e : PyExc} (h : e.caught ≠ none) : Mapped (.error e : Except PyExc α) := by
  intro e' he
  cases he
  exact h

theorem Mapped.demand {c : Prop} [Decidable c] {e : PyExc} (h : e.caught ≠ none) :
    Mapped (demand c e) := by
  unfold RayX.demand
  split
  · exact .ok _
  · exact .error h

theorem int_mapped (n : Int) : Mapped (py.int n) := by
  unfold PyText.int
  split
  · exact .error (Option.some_ne_none _)
  · exact .ok _

theorem validateEndpointId_mapped (v : PyVal) : Mapped (validateEndpointId py v) := by
  cases v with
  | str s =>
    rw [validateEndpointId]
    split
    · exact .ok _
    · exact .error (Option.some_ne_none _)
  | int n => exact .error (Option.some_ne_none _)
  | bool b => exact .error (Option.some_ne_none _)
  | other t => exact .error (Option.some_ne_none _)

theorem metaInt_mapped (name : String) (v : PyVal) : Mapped (metaInt py name v) := by
  cases v with
  | int n =>
    rw [metaInt]
    split
    · exact .bind (int_mapped n) fun t => .error (Option.some_ne_none _)
    · exact .ok _
  | str s => exact .error (Option.some_ne_none _)
  | bool b => exact .error (Option.some_ne_none _)
  | other t => exact .error (Option.some_ne_none _)

theorem metaStr_mapped (name : String) (v : PyVal) : Mapped (metaStr name v) := by
  cases v with
  | str s => exact .ok _
  | int n => exact .error (Option.some_ne_none _)
  | bool b => exact .error (Option.some_ne_none _)
  | other t => exact .error (Option.some_ne_none _)

/-- no key is missing once the keys are right -/
theorem item_mapped (h : d.hasKeys = true) {k : String} (hk : lit k ∈ metadataKeys) :
    Mapped (d.item k) := by
  rw [PyDict.hasKeys, Bool.and_eq_true] at h
  have hsome := List.all_eq_true.mp h.2 (lit k) hk
  rw [PyDict.item]
  cases hl : d.entries.lookup (lit k) with
  | some v => exact .ok v
  | none =>
    rw [hl] at hsome
    cases hsome

theorem validateFields_mapped (h : d.hasKeys = true) : Mapped (validateFields py d) := by
  have item : ∀ k, lit k ∈ metadataKeys → Mapped (d.item k) := fun k hk => item_mapped h hk
  refine .bind (item _ (by decide)) fun v => .bind (validateEndpointId_mapped v) fun id => ?_
  refine .bind (item _ (by decide)) fun v => .bind (metaInt_mapped _ v) fun pid => ?_
  refine .bind (item _ (by decide)) fun v => .bind (metaStr_mapped _ v) fun host => ?_
  refine .bind (.demand (Option.some_ne_none _)) fun _ => ?_
  refine .bind (item _ (by decide)) fun v => .bind (metaInt_mapped _ v) fun proto => ?_
  refine .bind (item _ (by decide)) fun v => .bind (metaStr_mapped _ v) fun kind => ?_
  refine .bind (.demand (Option.some_ne_none _)) fun _ => ?_
  refine .bind (item _ (by decide)) fun v => .bind (metaStr_mapped _ v) fun addr => ?_
  refine .bind (.demand (Option.some_ne_none _)) fun _ => ?_
  exact .bind (.demand (Option.some_ne_none _)) fun _ => .ok _

end

/-! ## the two sides -/

section
variable {env : ConnectEnv} {o : PyObject} {timeout : Timeout} {m m' : Metadata}

theorem WellFormed.valid (h : WellFormed o m) : validateMetadata env.py o = .ok m := by
  obtain ⟨d, rfl, hs, hid⟩ := h
  exact validateMetadata_ok_iff.mpr ⟨hs, (reads_idRe _).mpr ⟨_, hid, Or.inl rfl⟩⟩

/-- an object has one reading as metadata -/
theorem WellFormed.unique (h : WellFormed o m) (hv : validateMetadata env.py o = .ok m') :
    m = m' := by
  have hm : validateMetadata env.py o = .ok m := h.valid
  rw [hv] at hm
  exact (Except.ok.inj hm).symm

theorem outcomeOf_raiseAs (cls : EndpointClass) (msg : String) :
    outcomeOf (raiseAs cls msg) = some (.fails cls) := rfl

/-- how a dial with its arguments ends -/
theorem connectUnix_dial {id path : List UInt8} {ms : Int64} (hid : utf8 m.endpointId = some id)
    (ha : DialArgs m timeout path ms) :
    ((env.probe path ms = .timeout → ∃ t, timeout.shown = .ok t) ∧
      outcomeOf (connectUnix env m timeout) = some (env.probe path ms).outcome) ∨
    (¬ (env.probe path ms = .timeout → ∃ t, timeout.shown = .ok t) ∧
      outcomeOf (connectUnix env m timeout) = none) := by
  obtain ⟨hpath, n, hn, hms⟩ := ha
  have hcode : connectUnix env m timeout = (do
      let (status, native) ← (if (env.probe path ms).code = 0 then
          .ok (0, some (.remote path id ms)) else .ok ((env.probe path ms).code, none) :
          Except ConnectExc (Int × Option NativeConn))
      if status = connectOk then .ok native
      else if status = connectTimeout then do
        let t ← escape timeout.shown
        raiseAs .timeout (s!"timed out connecting to peer endpoint {m.endpointId.text} "
          ++ s!"at {env.py.repr m.transportAddr} after {t}s")
      else if status = connectUnreachable then
        raiseAs .unreachable (s!"peer endpoint {m.endpointId.text} is not listening "
          ++ s!"at {env.py.repr m.transportAddr}")
      else raiseAs .error s!"unexpected connect status {status}") := by
    rw [connectUnix, hn]
    show (endpointConnectUnix env m.endpointId m.transportAddr (max 1 n) >>= _) = _
    rw [endpointConnectUnix, hid, hpath, hms]
  rw [hcode]
  cases env.probe path ms with
  | ok => exact Or.inl ⟨by simp, rfl⟩
  | unreachable => exact Or.inl ⟨by simp, rfl⟩
  | timeout =>
    cases hshown : timeout.shown with
    | ok t => exact Or.inl ⟨fun _ => ⟨t, rfl⟩, rfl⟩
    | error e =>
      refine Or.inr ⟨fun h => ?_, rfl⟩
      obtain ⟨t, ht⟩ := h rfl
      cases ht

/-- a dial without its arguments raises something else -/
theorem connectUnix_undialled (h : ∀ path ms, ¬ DialArgs m timeout path ms) :
    outcomeOf (connectUnix env m timeout) = none := by
  rw [connectUnix]
  cases hn : timeout.millis with
  | error e => rfl
  | ok n =>
    show outcomeOf (endpointConnectUnix env m.endpointId m.transportAddr (max 1 n) >>= _) = none
    rw [endpointConnectUnix]
    split
    · rename_i id path ms hid hpath hms
      exact absurd ⟨hpath, n, hn, hms⟩ (h path ms)
    · rfl

theorem native_outcome {α : Type} {x : Except ConnectExc α} (hx : ∀ e, x ≠ .error (.endpoint e))
    {f : α → Except ConnectExc (Option NativeConn)} {c : EndpointClass}
    (hf : ∀ a, outcomeOf (f a) ≠ some (.fails c)) : outcomeOf (x >>= f) ≠ some (.fails c) := by
  cases x with
  | ok a => exact hf a
  | error e =>
    cases e with
    | endpoint e => exact absurd rfl (hx e)
    | python e =>
      intro h
      cases h

theorem escape_ne {α : Type} (x : Except PyExc α) (e : EndpointErr) :
    escape x ≠ .error (.endpoint e) := by
  cases x with
  | ok a => intro h; cases h
  | error e => intro h; cases h

theorem endpointConnectLocal_ne (id : PyStr) (e : EndpointErr) :
    endpointConnectLocal env id ≠ .error (.endpoint e) := by
  rw [endpointConnectLocal]
  split
  · intro h; cases h
  · intro h; cases h

theorem endpointConnectUnix_ne (id path : PyStr) (ms : Int) (e : EndpointErr) :
    endpointConnectUnix env id path ms ≠ .error (.endpoint e) := by
  rw [endpointConnectUnix]
  split
  · dsimp only
    split
    · intro h; cases h
    · intro h; cases h
  · intro h; cases h

theorem raiseAs_ne {cls c : EndpointClass} (h : cls ≠ c) (msg : String) :
    outcomeOf (raiseAs cls msg) ≠ some (.fails c) := by
  rw [outcomeOf_raiseAs]
  intro hc
  cases hc
  exact h rfl

theorem connectUnix_ne_validation :
    outcomeOf (connectUnix env m timeout) ≠ some (.fails .validation) := by
  rw [connectUnix]
  refine native_outcome (escape_ne _) fun n => ?_
  refine native_outcome (endpointConnectUnix_ne _ _ _) fun r => ?_
  obtain ⟨status, native⟩ := r
  dsimp only
  split
  · intro h; cases h
  · split
    · exact native_outcome (escape_ne _) fun t => raiseAs_ne (by decide) _
    · split
      · exact raiseAs_ne (by decide) _
      · exact raiseAs_ne (by decide) _

/-- nothing behind the validator raises an `EndpointValidationError` -/
theorem connectValid_ne_validation :
    outcomeOf (connectValid env m timeout) ≠ some (.fails .validation) := by
  rw [connectValid]
  split
  · exact native_outcome (escape_ne _) fun t => raiseAs_ne (by decide) _
  · split
    · exact raiseAs_ne (by decide) _
    · split
      · refine native_outcome (endpointConnectLocal_ne _) fun r => ?_
        cases r with
        | none => exact raiseAs_ne (by decide) _
        | some native => intro h; cases h
      · split
        · exact raiseAs_ne (by decide) _
        · split
          · exact connectUnix_ne_validation
          · exact raiseAs_ne (by decide) _

/-! ## malformed metadata -/

/-- metadata that is rejected -/
theorem typed_of_rejected {e : PyExc} (hv : validateMetadata env.py o = .error e) :
    Typed env o timeout ↔ Ordinary env o timeout := by
  have hno : ∀ m, ¬ WellFormed o m := by
    intro m hm
    rw [hm.valid] at hv
    cases hv
  have hout : outcomeOf (connect env o timeout)
      = if e.caught = none then none else some (.fails .validation) := by
    rw [connect, hv]
    dsimp only
    cases hc : e.caught with
    | none => rfl
    | some msg => rfl
  have htyped : Typed env o timeout ↔ e.caught ≠ none := by
    constructor
    · rintro ⟨out, -, hc⟩ hnone
      rw [hout, if_pos hnone] at hc
      cases hc
    · intro hc
      exact ⟨_, .malformed hno, by rw [hout, if_neg hc]⟩
  rw [htyped]
  constructor
  · intro hc
    refine ⟨?_, ?_, fun m hm => absurd hm (hno m), fun m hm => absurd hm (hno m)⟩
    · rintro d e' rfl hk hs
      rw [validateMetadata, hk, if_neg (by decide), hs] at hv
      cases hv
      exact hc
    · rintro d m id rfl hs hid hnl
      have hok : validateMetadata env.py (.dict d) = .ok m :=
        validateMetadata_ok_iff.mpr ⟨hs, (reads_idRe _).mpr ⟨id, hid, Or.inr hnl⟩⟩
      rw [hok] at hv
      cases hv
  · intro h
    cases o with
    | other t =>
      cases hv
      exact Option.some_ne_none _
    | dict d =>
      rw [validateMetadata] at hv
      by_cases hk : d.hasKeys = true
      · rw [if_pos hk] at hv
        exact validateFields_mapped hk e hv
      · rw [if_neg hk] at hv
        cases hs : d.sortedKeys with
        | error e' =>
          rw [hs] at hv
          cases hv
          exact h.keys d e rfl (by simpa using hk) hs
        | ok got =>
          rw [hs] at hv
          cases hv
          exact Option.some_ne_none _

/-- an id before a newline is accepted, and not as documented -/
theorem typed_of_newline {d : PyDict} {id : PyStr} (ho : o = .dict d) (hs : Shape d m)
    (hid : IdShape id) (hnl : m.endpointId = id ++ [newlineChar]) :
    Typed env o timeout ↔ Ordinary env o timeout := by
  have hv : validateMetadata env.py o = .ok m := by
    rw [ho]
    exact validateMetadata_ok_iff.mpr ⟨hs, (reads_idRe _).mpr ⟨id, hid, Or.inr hnl⟩⟩
  have hno : ∀ m', ¬ WellFormed o m' := by
    intro m' hm
    have hmm := hm.unique hv
    obtain ⟨_, _, _, hid'⟩ := hm
    rw [hmm, hnl] at hid'
    exact hid.ne_append _ hid'
  refine iff_of_false ?_ fun h => h.id d m id ho hs hid hnl
  rintro ⟨out, hdoc, hout⟩
  have hval : out = .fails .validation := by
    cases hdoc with
    | malformed _ => rfl
    | protocol h _ => exact absurd h (hno _)
    | otherHost h _ _ => exact absurd h (hno _)
    | sameProcess h _ _ _ _ => exact absurd h (hno _)
    | noTransport h _ _ _ _ => exact absurd h (hno _)
    | dialled h _ _ => exact absurd h (hno _)
  rw [hval, connect, hv] at hout
  exact connectValid_ne_validation hout

/-! ## well-formed metadata -/

theorem int_printed {py : PyText} {n : Int} :
    (∃ t, py.int n = .ok t) ↔ py.maxStrDigits = 0 ∨ n.natAbs < 10 ^ py.maxStrDigits := by
  rw [PyText.int]
  split
  · rename_i h
    refine iff_of_false ?_ ?_
    · rintro ⟨t, ht⟩
      cases ht
    · rintro (h0 | hlt)
      · exact h.1 h0
      · exact absurd h.2 (Nat.not_le.mpr hlt)
  · rename_i h
    refine iff_of_true ⟨_, rfl⟩ ?_
    by_cases h0 : py.maxStrDigits = 0
    · exact Or.inl h0
    · exact Or.inr (Nat.not_le.mp fun hle => h ⟨h0, hle⟩)

/-- what is left to ask of well-formed metadata -/
theorem ordinary_iff (hw : WellFormed o m) : Ordinary env o timeout ↔
    (m.protoVersion ≠ endpointProtoVersion → ∃ t, env.py.int m.protoVersion = .ok t) ∧
    (Dials env m → ∃ path ms, DialArgs m timeout path ms ∧
      (env.probe path ms = .timeout → ∃ t, timeout.shown = .ok t)) := by
  have hv : validateMetadata env.py o = .ok m := hw.valid
  constructor
  · intro h
    exact ⟨fun hp => int_printed.mpr (h.proto m hw hp), h.dial m hw⟩
  · rintro ⟨hproto, hdial⟩
    refine ⟨?_, ?_, ?_, ?_⟩
    · rintro d e rfl hk
      obtain ⟨d', hd, hs, _⟩ := hw
      cases hd
      rw [hs.keys] at hk
      cases hk
    · rintro d m' id rfl hs hid hnl
      obtain ⟨d', hd, hs', hid'⟩ := hw
      cases hd
      have hlook := hs.endpointId
      rw [hs'.endpointId] at hlook
      rw [PyVal.str.inj (Option.some.inj hlook), hnl] at hid'
      exact hid.ne_append _ hid'
    · intro m' hw' hp
      rw [hw'.unique hv] at hp ⊢
      exact int_printed.mp (hproto hp)
    · intro m' hw' hd
      rw [hw'.unique hv] at hd ⊢
      exact hdial hd

/-- the documented outcome of well-formed metadata is one of the class its conditions give -/
theorem typed_of_doc (hw : WellFormed o m) {out : Outcome} (hd : Documented env o timeout out)
    (hc : outcomeOf (connectValid env m timeout) = some out) : Typed env o timeout :=
  ⟨out, hd, by rw [connect, hw.valid]; exact hc⟩

/-- another protocol: the error carries the number -/
theorem typed_protocol (hw : WellFormed o m) (hp : m.protoVersion ≠ endpointProtoVersion) :
    Typed env o timeout ↔ ∃ t, env.py.int m.protoVersion = .ok t := by
  have hcode : connectValid env m timeout = (do
      let t ← escape (env.py.int m.protoVersion)
      raiseAs .protocol s!"peer proto_version {t} != this build's {endpointProtoVersion}") := by
    rw [connectValid, if_pos hp]
  constructor
  · rintro ⟨out, -, hout⟩
    rw [connect, hw.valid] at hout
    dsimp only at hout
    rw [hcode] at hout
    cases hint : env.py.int m.protoVersion with
    | ok t => exact ⟨t, rfl⟩
    | error e =>
      rw [hint] at hout
      cases hout
  · rintro ⟨t, ht⟩
    refine typed_of_doc hw (.protocol hw hp) ?_
    rw [hcode, ht]
    rfl

/-- a dial -/
theorem typed_dial (hw : WellFormed o m) (hd : Dials env m) :
    Typed env o timeout ↔ ∃ path ms, DialArgs m timeout path ms ∧
      (env.probe path ms = .timeout → ∃ t, timeout.shown = .ok t) := by
  obtain ⟨_, _, _, hid⟩ := id hw
  have hbytes := utf8_ascii hid.ascii
  have hnone : m.transportKind ≠ lit "none" := by
    rw [hd.kind]
    decide
  have hcode : connectValid env m timeout = connectUnix env m timeout := by
    rw [connectValid, if_neg (not_not.mpr hd.proto), if_neg (not_not.mpr hd.host), if_neg hd.pid,
      if_neg hnone, if_pos hd.kind]
  constructor
  · rintro ⟨out, -, hout⟩
    rw [connect, hw.valid] at hout
    dsimp only at hout
    rw [hcode] at hout
    by_cases hargs : ∃ path ms, DialArgs m timeout path ms
    · obtain ⟨path, ms, hargs⟩ := hargs
      rcases connectUnix_dial hbytes hargs with ⟨hshown, -⟩ | ⟨-, hnone⟩
      · exact ⟨path, ms, hargs, hshown⟩
      · rw [hnone] at hout
        cases hout
    · rw [connectUnix_undialled (by simpa using hargs)] at hout
      cases hout
  · rintro ⟨path, ms, hargs, hshown⟩
    refine typed_of_doc hw (.dialled hw hd hargs) ?_
    rw [hcode]
    rcases connectUnix_dial hbytes hargs with ⟨-, hout⟩ | ⟨hno, -⟩
    · exact hout
    · exact absurd hshown hno

theorem typed_of_wellFormed (hw : WellFormed o m) :
    Typed env o timeout ↔ Ordinary env o timeout := by
  rw [ordinary_iff hw]
  by_cases hp : m.protoVersion = endpointProtoVersion
  swap
  · exact (typed_protocol hw hp).trans
      ⟨fun h => ⟨fun _ => h, fun hd => absurd hd.proto hp⟩, fun h => h.1 hp⟩
  by_cases hh : m.host = env.hostname
  swap
  · refine iff_of_true (typed_of_doc hw (.otherHost hw hp hh) ?_)
      ⟨fun h => absurd hp h, fun hd => absurd hd.host hh⟩
    rw [connectValid, if_neg (not_not.mpr hp), if_pos hh]
    rfl
  by_cases hpid : m.pid = env.pid
  · -- the registry of this process
    obtain ⟨_, _, _, hid⟩ := id hw
    have hbytes := utf8_ascii hid.ascii
    refine iff_of_true (typed_of_doc hw (.sameProcess hw hp hh hpid hbytes) ?_)
      ⟨fun h => absurd hp h, fun hd => absurd hpid hd.pid⟩
    rw [connectValid, if_neg (not_not.mpr hp), if_neg (not_not.mpr hh), if_pos hpid,
      endpointConnectLocal, hbytes]
    dsimp only
    cases env.reg.resolve (m.endpointId.map fun c => UInt8.ofNat c.val) with
    | none => rfl
    | some seam => rfl
  by_cases hk : m.transportKind = lit "unix"
  · have hd : Dials env m := ⟨hp, hh, hpid, hk⟩
    exact (typed_dial hw hd).trans
      ⟨fun h => ⟨fun hne => absurd hp hne, fun _ => h⟩, fun h => h.2 hd⟩
  · -- no transport, or another one
    refine iff_of_true (typed_of_doc hw (.noTransport hw hp hh hpid hk) ?_)
      ⟨fun h => absurd hp h, fun hd => absurd hd.kind hk⟩
    rw [connectValid, if_neg (not_not.mpr hp), if_neg (not_not.mpr hh), if_neg hpid]
    split
    · rfl
    · rfl

end

/-- **`connect` fails only with typed errors, in the documented order**, for exactly the objects for
which nothing is raised outside the handler of the validator. -/
theorem connect_typed_iff (env : ConnectEnv) (o : PyObject) (timeout : Timeout) :
    Typed env o timeout ↔ Ordinary env o timeout := by
  cases hv : validateMetadata env.py o with
  | error e => exact typed_of_rejected hv
  | ok m =>
    cases o with
    | other t => cases hv
    | dict d =>
      obtain ⟨hs, hread⟩ := validateMetadata_ok_iff.mp hv
      obtain ⟨id, hid, hm | hm⟩ := (reads_idRe _).mp hread
      · rw [← hm] at hid
        exact typed_of_wellFormed ⟨d, rfl, hs, hid⟩
      · exact typed_of_newline rfl hs hid hm

/-- a peer in another process of the machine -/
def unixPeer : PyDict where
  entries := [(lit "endpoint_id", .str (lit "rtb-ep-0123456789abcdef")), (lit "pid", .int 7),
    (lit "host", .str (lit "node")), (lit "proto_version", .int 2),
    (lit "transport_kind", .str (lit "unix")), (lit "transport_addr", .str (lit "/tmp/rtb.sock"))]
  sortedKeys := .ok "[]"
  once := by decide

def nodeEnv : ConnectEnv where
  py := { repr := PyStr.text, maxStrDigits := 4300 }
  hostname := lit "node"
  pid := 1
  reg := EndpointRegistry.empty
  probe := fun _ _ => .ok

/-- `float("inf")` -/
def infinity : Timeout := { millis := .error (.other "OverflowError"), shown := .ok "inf" }

theorem connect_overflow : connect nodeEnv (.dict unixPeer) infinity
      = .error (.python (.other "OverflowError")) ∧ ¬ Typed nodeEnv (.dict unixPeer) infinity := by
  have hexc : connect nodeEnv (.dict unixPeer) infinity
      = .error (.python (.other "OverflowError")) := rfl
  refine ⟨hexc, ?_⟩
  rintro ⟨out, -, hout⟩
  rw [hexc] at hout
  cases hout

/-- with a timeout of five seconds the same peer gets a connection -/
example : outcomeOf (connect nodeEnv (.dict unixPeer) { millis := .ok 5000, shown := .ok "5.0" })
    = some .connection := rfl

end RayX
