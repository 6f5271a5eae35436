import SimSearch.Lib.Grouping
import SimSearch.Lib.Verdicts
import SimSearch.Lib.Runs
import SimSearch.Lib.Bytes
import SimSearch.Lib.Json
import SimSearch.Lib.Program
import SimSearch.Lib.Concurrent
import SimSearch.Lib.Slots
import SimSearch.Lib.Leases
import SimSearch.Lib.Tickets
import SimSearch.Lib.Incarnations
import SimSearch.Lib.AppendFile
import SimSearch.Lib.Ranges
import SimSearch.Lib.Ledger
import SimSearch.Lib.Stm
import SimSearch.Lib.Separators
import SimSearch.Lib.Indices
import SimSearch.Lib.DoubleBuffer
import SimSearch.Lib.PrefixRange
import SimSearch.Lib.Failover
import SimSearch.Lib.Replication
import SimSearch.Lib.Sprintf
import SimSearch.Common.Proto
import SimSearch.Common.Dto
import SimSearch.Common.StringArrays
import SimSearch.Common.Vectors
import SimSearch.Router.Routing
import SimSearch.Router.Groups
import SimSearch.Router.Reports
import SimSearch.Router.IndexLaws
import SimSearch.Router.IndexMap
import SimSearch.Router.SpaceManager
import SimSearch.Router.Lookup
import SimSearch.Router.Startup
import SimSearch.Router.LongIds
import SimSearch.Router.RaftWrites
import SimSearch.Router.SpaceRange
import SimSearch.Ps.Node
import SimSearch.Ps.CreateAtomic
import SimSearch.Ps.Durability
import SimSearch.Ps.Boot
import SimSearch.Raft.Apply
import SimSearch.Raft.Client
import SimSearch.Raft.Snapshot
import SimSearch.Raft.Acknowledged
import SimSearch.Raft.EngineFiles
import SimSearch.Raft.Reload
import SimSearch.Raft.BatchRead
import SimSearch.Raft.TornWrites
import SimSearch.Raft.FileTool
import SimSearch.Raft.Group
import SimSearch.Raft.Convergence
import SimSearch.Router.WritePath
import SimSearch.Router.Walks
import SimSearch.Clients.KeepAlive
import SimSearch.Clients.DynamicResource
import SimSearch.Clients.Failover
import SimSearch.Master.Entity
import SimSearch.Master.Etcd
import SimSearch.Master.SpaceApi
import SimSearch.Master.SpaceCodec
import SimSearch.Master.Validation
import SimSearch.Master.Parallel
import SimSearch.Master.Footprint
import SimSearch.Master.Answers
import SimSearch.Master.Appends
import SimSearch.Master.Blame
import SimSearch.Master.Rollback
import SimSearch.Master.Requests
import SimSearch.Master.Mutex
import SimSearch.Master.Exclusive
import SimSearch.Master.Gate
import SimSearch.Master.Register
import SimSearch.Master.SpaceIds
import SimSearch.Master.IdGenerate
import SimSearch.Master.Keys
import SimSearch.Master.Release
import SimSearch.Master.Guarded
import SimSearch.Master.Placed
import SimSearch.Master.Works
import SimSearch.Master.Consistent
import SimSearch.Cluster.Messages
import SimSearch.Cluster.Keys
import SimSearch.Cluster.Schema
import SimSearch.Cluster.IndexParams
import SimSearch.Cluster.Conversion
import SimSearch.Cluster.Placement
import SimSearch.Cluster.Layout
import SimSearch.Cluster.Incarnations
import SimSearch.Cluster.NodeIds
import SimSearch.Cluster.Fleet
import SimSearch.Cluster.Availability
