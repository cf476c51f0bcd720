import WalServer.Lib.BigEndian
import WalServer.Lib.Transition
import WalServer.Lib.TermLog
import WalServer.Lib.Outcome
import WalServer.Lib.Inlet
import WalServer.Lib.KeyedLog
import WalServer.Lib.RefCell
import WalServer.Lib.Framing
import WalServer.Lib.Reader
import WalServer.Lib.Crc
import WalServer.Lib.Custody
import WalServer.Lib.Window
import WalServer.Lib.Turns
import WalServer.Lib.Decimal
import WalServer.Lib.Runs
import WalServer.Lib.ByKey
import WalServer.Protocol.Codec
import WalServer.Raft.Types
import WalServer.Raft.Command
import WalServer.Raft.Storage
import WalServer.Raft.StateFile
import WalServer.Raft.Held
import WalServer.Raft.Restart
import WalServer.Raft.Contract
import WalServer.Wal.Record
import WalServer.Wal.Index
import WalServer.Wal.Segment
import WalServer.Wal.Scan
import WalServer.Wal.Crash
import WalServer.Wal.Recovery
import WalServer.Wal.Reader
import WalServer.Wal.Append
import WalServer.Wal.Stable
import WalServer.Wal.Found
import WalServer.Wal.Rebuild
import WalServer.Wal.Opened
import WalServer.Wal.Damage
import WalServer.Wal.Names
import WalServer.Wal.Disk
import WalServer.Wal.Handles
import WalServer.Wal.Retention
import WalServer.Wal.Rolling
import WalServer.Shard.StreamState
import WalServer.Shard.Core
import WalServer.Shard.StepDown
import WalServer.Shard.StreamSnapshot
import WalServer.Shard.Engine
import WalServer.Shard.Progress
import WalServer.Shard.Steps
import WalServer.Shard.Delivery
import WalServer.Shard.Install
import WalServer.Shard.Calls
import WalServer.Shard.Answers
import WalServer.Shard.Collect
import WalServer.Shard.Replica
import WalServer.Shard.Onward
import WalServer.Shard.OwnLog
import WalServer.Shard.Positions
import WalServer.Shard.ReadPaths
import WalServer.Shard.Watermarks
import WalServer.Shard.Traced
import WalServer.Shard.Agreement
import WalServer.Shard.Redelivery
import WalServer.Shard.TailCache
import WalServer.Shard.StreamLogs
import WalServer.Shard.Serving
import WalServer.Shard.LeaderRun
import WalServer.Shard.KeepsLogs
import WalServer.Shard.Reads
import WalServer.Shard.Leadership
import WalServer.Shard.Loop
import WalServer.Shard.Acknowledged
import WalServer.Shard.Iteration
import WalServer.Shard.WritePath
import WalServer.Cluster.Model
import WalServer.Cluster.Step
import WalServer.Cluster.Laws
import WalServer.Cluster.Discipline
import WalServer.Cluster.Acks
import WalServer.Cluster.GivenUp
import WalServer.Cluster.Lsn
import WalServer.Cluster.Epoch
import WalServer.Cluster.InTime
import WalServer.Cluster.Snapshots
import WalServer.Cluster.Holes
import WalServer.Numa.Placement
import WalServer.Numa.Detection
import WalServer.Net.Acceptor
import WalServer.Net.Steps
import WalServer.Net.Borrows
import WalServer.Net.Routing
import WalServer.Net.Traffic
import WalServer.Net.Wire
import WalServer.Net.Peer
import WalServer.Net.Handed
import WalServer.Net.Moves
import WalServer.Net.PeerLink
import WalServer.Net.PeerDelivery
import WalServer.Net.PeerTransport
import WalServer.Net.Client
import WalServer.Server.Model
import WalServer.Server.Issues
import WalServer.Server.Tickets
import WalServer.Server.Responses
import WalServer.Server.Matches
import WalServer.Server.Delivery
import WalServer.Server.Partition
