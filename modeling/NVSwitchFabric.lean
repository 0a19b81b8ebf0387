import NVSwitchFabric.Lib.Worklist
import NVSwitchFabric.Correctness.Fencing
import NVSwitchFabric.Correctness.PathIntact
import NVSwitchFabric.Correctness.GateKept
import NVSwitchFabric.Correctness.StaleBoot
import NVSwitchFabric.Correctness.LiveEvidence
import NVSwitchFabric.Correctness.Restart
import NVSwitchFabric.Correctness.Authority
import NVSwitchFabric.Correctness.Generations
import NVSwitchFabric.Correctness.PathHops
import NVSwitchFabric.Correctness.Unchanged
import NVSwitchFabric.Correctness.RecordInvariant
import NVSwitchFabric.Correctness.Restorable
import NVSwitchFabric.Correctness.CrashSafe
import NVSwitchFabric.Correctness.UsablePaths
import NVSwitchFabric.Correctness.Publication
import NVSwitchFabric.Correctness.Rejoin
import NVSwitchFabric.Correctness.Exclusive
import NVSwitchFabric.Correctness.Reachability
import NVSwitchFabric.Lib.Framing
import NVSwitchFabric.Runtime.Transport
import NVSwitchFabric.Correctness.FrameRoundTrip
import NVSwitchFabric.Correctness.Segmentation
import NVSwitchFabric.Correctness.Bursts
import NVSwitchFabric.Correctness.DeclaredEnums
import NVSwitchFabric.Correctness.PrefixFree
import NVSwitchFabric.Correctness.Tainted
import NVSwitchFabric.Correctness.Revival
import NVSwitchFabric.Correctness.SwitchWalks
import NVSwitchFabric.Correctness.PathLayout
import NVSwitchFabric.Correctness.CongestionPaths
import NVSwitchFabric.Correctness.RestoreReport
import NVSwitchFabric.Correctness.Replacement
import NVSwitchFabric.Correctness.LiveMeasurements
import NVSwitchFabric.Runtime.Worker
import NVSwitchFabric.Correctness.RouteAnswer
import NVSwitchFabric.Correctness.Deliverable
import NVSwitchFabric.Correctness.PolicyRoundTrip
import NVSwitchFabric.Lib.Logged
import NVSwitchFabric.Runtime.Access
import NVSwitchFabric.Correctness.InBounds
import NVSwitchFabric.Correctness.PathOrder
import NVSwitchFabric.Correctness.Ranking
import NVSwitchFabric.Correctness.HiddenDegradation
import NVSwitchFabric.Correctness.SwitchLimit
import NVSwitchFabric.Correctness.Health
import NVSwitchFabric.Correctness.PartitionAdvance
import NVSwitchFabric.Correctness.Cascade
import NVSwitchFabric.Correctness.BulkEdits
import NVSwitchFabric.Correctness.EdgeOrder
import NVSwitchFabric.Correctness.SortTies
import NVSwitchFabric.Correctness.CloseFrame
import NVSwitchFabric.Correctness.PortCounts
import NVSwitchFabric.Correctness.FrameDecoders
import NVSwitchFabric.Correctness.FieldSequences
import NVSwitchFabric.Correctness.FrontierEnds
import NVSwitchFabric.Correctness.FactorWeights
import NVSwitchFabric.Correctness.KeyText
import NVSwitchFabric.Correctness.WalkOrder
import NVSwitchFabric.Correctness.CanonicalKeys
import NVSwitchFabric.Lib.Channel
import NVSwitchFabric.Runtime.Network
import NVSwitchFabric.Correctness.Delivery
import NVSwitchFabric.Correctness.Handled
import NVSwitchFabric.Correctness.RemoteQuery
import NVSwitchFabric.Correctness.Session
import NVSwitchFabric.Lib.Observer
import NVSwitchFabric.Correctness.Distance
import NVSwitchFabric.Correctness.Durable
import NVSwitchFabric.Correctness.Histories
import NVSwitchFabric.Correctness.Readers
import NVSwitchFabric.Correctness.Withdrawals
import NVSwitchFabric.Correctness.Backends
import NVSwitchFabric.Correctness.Agreement
import NVSwitchFabric.Correctness.Causes
import NVSwitchFabric.Correctness.Footprint
import NVSwitchFabric.Correctness.InsertionOrder
import NVSwitchFabric.Correctness.Inspection
import NVSwitchFabric.Correctness.Refusals
