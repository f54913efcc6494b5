import Netsukuku.Core.Outcome
import Netsukuku.Core.KeyedMap
import Netsukuku.Core.Scan
import Netsukuku.Core.Float64
import Netsukuku.Core.Encoding
import Netsukuku.Core.Protobuf
import Netsukuku.Common.Address
import Netsukuku.Common.Cost
import Netsukuku.Common.Fingerprint
import Netsukuku.Qspn.Path
import Netsukuku.Qspn.Validate
import Netsukuku.Qspn.Revise
import Netsukuku.Qspn.Config
import Netsukuku.Qspn.State
import Netsukuku.Qspn.UpdateMap
import Netsukuku.Qspn.Flood
import Netsukuku.Qspn.Manager
import Netsukuku.Qspn.UpdateMapSpec
import Netsukuku.Qspn.Invariant
import Netsukuku.Qspn.UpdateMapTotal
import Netsukuku.Qspn.Reachable
import Netsukuku.Qspn.Merge
import Netsukuku.Qspn.Withdrawal
import Netsukuku.Qspn.Diff
import Netsukuku.Qspn.Sending
import Netsukuku.Qspn.Handlers
import Netsukuku.Qspn.Network
import Netsukuku.Qspn.Acceptance
import Netsukuku.Qspn.Debounce
import Netsukuku.Core.MixedRadix
import Netsukuku.PeerServices.Tuple
import Netsukuku.PeerServices.Actor
import Netsukuku.PeerServices.Routing
import Netsukuku.PeerServices.TupleSpec
import Netsukuku.PeerServices.Attribution
import Netsukuku.PeerServices.Servants
import Netsukuku.PeerServices.Relay
import Netsukuku.PeerServices.Replicas
import Netsukuku.Qspn.Shown
import Netsukuku.Qspn.Snapshot
import Netsukuku.Qspn.Estimate
import Netsukuku.Qspn.Splits
import Netsukuku.PeerServices.Participation
import Netsukuku.PeerServices.Gossip
import Netsukuku.PeerServices.Forwarder
import Netsukuku.PeerServices.Exclusion
import Netsukuku.PeerServices.OriginAuth
import Netsukuku.Andna.Signing
import Netsukuku.Coordinator.Actor
import Netsukuku.Coordinator.Replica
import Netsukuku.Coordinator.Reservations
import Netsukuku.Coordinator.Propagation
import Netsukuku.Andna.Snsd
import Netsukuku.Andna.Record
import Netsukuku.Andna.Ownership
import Netsukuku.Andna.Counter
import Netsukuku.Hooking.Domain
import Netsukuku.Hooking.Search
import Netsukuku.Hooking.Border
import Netsukuku.Hooking.Chain
import Netsukuku.Hooking.Shift
import Netsukuku.Hooking.Entry
import Netsukuku.Hooking.Termination
import Netsukuku.Hooking.Release
import Netsukuku.Hooking.Arbiter
import Netsukuku.Hooking.Record
import Netsukuku.Hooking.Grants
import Netsukuku.Hooking.Episodes
import Netsukuku.Hooking.MergeVerdict
import Netsukuku.Kernel.Addressing
import Netsukuku.Kernel.Netlink
import Netsukuku.Kernel.Routes
import Netsukuku.Kernel.Ledger
import Netsukuku.Identities.Registry
import Netsukuku.Identities.Tasks
import Netsukuku.Identities.Actor
import Netsukuku.Identities.MainRole
import Netsukuku.Identities.Node
import Netsukuku.Identities.ArcTable
import Netsukuku.Identities.Network
import Netsukuku.Identities.Dismissal
import Netsukuku.Identities.Handshake
import Netsukuku.Identities.Matched
import Netsukuku.Identities.Unmatched
import Netsukuku.Identities.Agreement
import Netsukuku.Neighborhood.Arc
import Netsukuku.Neighborhood.Manager
import Netsukuku.Neighborhood.Edits
import Netsukuku.Neighborhood.Consistency
import Netsukuku.Neighborhood.Pinning
import Netsukuku.Neighborhood.Actor
import Netsukuku.Neighborhood.Caps
import Netsukuku.Neighborhood.LateResults
import Netsukuku.Rpc.Envelope
import Netsukuku.Rpc.Client
import Netsukuku.Rpc.Calls
import Netsukuku.Rpc.Pending
import Netsukuku.Rpc.Server
import Netsukuku.Rpc.Correlation
import Netsukuku.PeerServices.Distance
import Netsukuku.Core.Contest
import Netsukuku.Qspn.Election
import Netsukuku.Qspn.Clusters
import Netsukuku.Qspn.Pruning
import Netsukuku.Proto.Sequence
import Netsukuku.Kernel.Tables
import Netsukuku.Neighborhood.LinkCost
import Netsukuku.Andna.Resolve
import Netsukuku.PeerServices.Waiting
import Netsukuku.Qspn.Estimate
import Netsukuku.Proto.Domain
import Netsukuku.Proto.Messages
import Netsukuku.Qspn.Wire
import Netsukuku.Core.Frontier
import Netsukuku.Hooking.Nearest
import Netsukuku.PeerServices.Agreement
import Netsukuku.PeerServices.CallSafety
import Netsukuku.Core.Courier
import Netsukuku.Hooking.Wire
import Netsukuku.Hooking.Messages
import Netsukuku.Hooking.Routing
import Netsukuku.Hooking.ArcHandler
import Netsukuku.Core.TryLock
import Netsukuku.Hooking.Manager
import Netsukuku.Core.Sweep
import Netsukuku.Kernel.Cleanup
import Netsukuku.Kernel.Restart
import Netsukuku.Qspn.Migration
import Netsukuku.Qspn.Total
import Netsukuku.Qspn.Overlay
