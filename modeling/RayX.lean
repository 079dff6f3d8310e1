import RayX.Lib.Run
import RayX.Lib.Table
import RayX.Lib.Counter
import RayX.Lib.Guard
import RayX.Lib.Prog
import RayX.Ops.Value
import RayX.Ops.Kernels
import RayX.Ops.Registry
import RayX.Ops.ClosedForm
import RayX.Ops.Validate
import RayX.Actor.Registry
import RayX.Lane.Token
import RayX.Lane.Lane
import RayX.Lane.Inv
import RayX.Lane.Life
import RayX.Lane.Drain
import RayX.Lane.Cancel
import RayX.Lane.CancelPending
import RayX.Lib.Replay
import RayX.Actor.Linear
import RayX.Actor.Engine
import RayX.Owner.Gil
import RayX.Bridge.Slot
import RayX.Lib.Bytes
import RayX.Lib.Struct
import RayX.Endpoint.Codec
import RayX.Endpoint.Wire
import RayX.Endpoint.Seam
import RayX.Endpoint.Transport
import RayX.Bridge.Call
import RayX.Bridge.Admission
import RayX.Endpoint.Listener
import RayX.Endpoint.Lifecycle
import RayX.Endpoint.Lookup
import RayX.Harness.Service
import RayX.Harness.Lane
import RayX.Harness.Life
import RayX.Harness.Account
import RayX.Harness.Cancel
import RayX.Harness.Engine
import RayX.Harness.Routing
import RayX.Supervision.Observer
import RayX.Supervision.Publication
import RayX.Lib.Dataflow
import RayX.Lib.Signed
import RayX.Ops.Checked
import RayX.Lib.Ranges
import RayX.Ops.Fanout
import RayX.Ops.Chain
import RayX.Ops.Gate
import RayX.Ops.Barrier
import RayX.Ops.Rendezvous
import RayX.Ops.Fanin
import RayX.Ops.Boundary
import RayX.Ops.Overflow
import RayX.Lane.Cap
import RayX.Lib.Codec
import RayX.Endpoint.RoundTrip
import RayX.Endpoint.Socket
import RayX.Endpoint.Serve
import RayX.Bridge.Remote
import RayX.Bridge.Status
import RayX.Endpoint.Deadline
import RayX.Lib.Pattern
import RayX.Endpoint.Metadata
import RayX.Lib.Loan
import RayX.Wait.Native
import RayX.Lib.Split
import RayX.Wait.Python
import RayX.Wait.Complete
import RayX.Lib.Unwind
import RayX.Actor.Creation
import RayX.Lib.Turns
import RayX.Bench.Loop
import RayX.Bench.Service
import RayX.Bench.Drivers
import RayX.Bench.Window
import RayX.Endpoint.Connect
import RayX.Lib.TopK
import RayX.Lib.Words
import RayX.Experiments.TopK
import RayX.Experiments.Reduction
import RayX.Experiments.Payload
import RayX.Experiments.Timeout
import RayX.Bench.Jsonl
import RayX.Lib.Watch
import RayX.Supervision.Witness
import RayX.Supervision.Island
import RayX.Lib.Timeline
import RayX.Supervision.EventLog
import RayX.Supervision.Poison
import RayX.Supervision.Sweep
import RayX.Supervision.Roles
import RayX.Lib.Stamp
import RayX.Ops.Overlap
import RayX.Ops.Trace
import RayX.Ops.Join
import RayX.Ops.Quota
import RayX.Lib.Peak
import RayX.Ops.Peaks
import RayX.Experiments.ActiveGuard
import RayX.Lib.Collect
import RayX.Experiments.WaiterFix
import RayX.Experiments.WaiterVerdict
import RayX.Lib.Owned
import RayX.Facade.Future
import RayX.Facade.Runtime
import RayX.Facade.Moves
import RayX.Facade.Inv
import RayX.Facade.Contract
import RayX.Facade.Teardown
import RayX.Facade.Shutdown
import RayX.Facade.Refusals
import RayX.Facade.Outcomes
import RayX.Lib.Settle
import RayX.Facade.History
import RayX.Facade.Get
import RayX.Facade.Work
import RayX.Facade.Chores
import RayX.Facade.Requests
import RayX.Facade.Liveness
import RayX.Lib.Flight
import RayX.Experiments.Verifier
import RayX.Experiments.Batch
import RayX.Experiments.Evaluation
import RayX.Experiments.Soak
import RayX.Experiments.Linkage
import RayX.Lib.Deadman
import RayX.Experiments.Demand
import RayX.Experiments.DemandArgv
import RayX.Experiments.DemandRoot
import RayX.Experiments.DemandConn
import RayX.Experiments.DemandOrder
import RayX.Experiments.DemandGates
import RayX.Supervision.Recovery
import RayX.Supervision.RecoveryRoot
import RayX.Supervision.RecoveryOrder
import RayX.Supervision.RecoveryGates
