import AetherEngine.Foundations.Runs
import AetherEngine.Foundations.Frames
import AetherEngine.Consensus.LogStore
import AetherEngine.Consensus.WalRecovery
import AetherEngine.Foundations.Registers
import AetherEngine.Consensus.WalReplay
import AetherEngine.Foundations.Bincode
import AetherEngine.Consensus.WalCodec
import AetherEngine.Consensus.WalLogStore
import AetherEngine.Consensus.WalCrash
import AetherEngine.Consensus.WalDamage
import AetherEngine.Consensus.StateMachine
import AetherEngine.Shard.Reconcile
import AetherEngine.Foundations.Ranking
import AetherEngine.Common.Messages
import AetherEngine.Coordinator.Fanout
import AetherEngine.Coordinator.Merging
import AetherEngine.Foundations.Tables
import AetherEngine.Shard.InvertedIndex
import AetherEngine.Shard.IndexRepresentation
import AetherEngine.Shard.IndexSearch
import AetherEngine.Shard.IndexInvariant
import AetherEngine.Shard.SnapshotInstall
import AetherEngine.Shard.Store
import AetherEngine.Shard.ShardApp
import AetherEngine.Coordinator.Registry
import AetherEngine.Coordinator.RegistryNodes
import AetherEngine.Common.Filter
import AetherEngine.Shard.Server
import AetherEngine.Coordinator.Service
import AetherEngine.Coordinator.Overlap
import AetherEngine.Federation.Search
import AetherEngine.Foundations.Doubles
import AetherEngine.Foundations.Rounding
import AetherEngine.Foundations.Floats
import AetherEngine.Foundations.Gathering
import AetherEngine.Foundations.Clustering
import AetherEngine.Foundations.Interpolation
import AetherEngine.Common.TDigest
import AetherEngine.Common.DigestHistory
import AetherEngine.Common.Quantiles
import AetherEngine.Common.DigestBuffer
import AetherEngine.Common.DigestWire
import AetherEngine.Common.DigestSorting
import AetherEngine.Common.DigestShares
import AetherEngine.Common.DigestDoubles
import AetherEngine.Common.DigestQueries
import AetherEngine.Shard.Agg
import AetherEngine.Shard.QueryAgreement
import AetherEngine.Common.Json
import AetherEngine.Shard.Ingest
import AetherEngine.Coordinator.Agg
import AetherEngine.Coordinator.AggSharding
import AetherEngine.Coordinator.AggSafety
import AetherEngine.Coordinator.EntryPoints
import AetherEngine.Coordinator.Hybrid
import AetherEngine.Federation.Coverage
import AetherEngine.Shard.Bootstrap
import AetherEngine.Shard.Embedding
import AetherEngine.Shard.Eviction
import AetherEngine.Coordinator.Control
import AetherEngine.Coordinator.ShardMap
import AetherEngine.Coordinator.Draining
import AetherEngine.Coordinator.WellFormed
import AetherEngine.Coordinator.Failover
import AetherEngine.Foundations.Decimal
import AetherEngine.Foundations.Files
import AetherEngine.Consensus.SnapshotFiles
import AetherEngine.Consensus.SnapshotS3
import AetherEngine.Consensus.VoteFile
import AetherEngine.Consensus.SnapshotIds
import AetherEngine.Shard.VectorGraph
import AetherEngine.Shard.VectorIndex
import AetherEngine.Shard.VectorRuns
import AetherEngine.Shard.VectorSearch
import AetherEngine.Foundations.Bits
import AetherEngine.Shard.Quant
import AetherEngine.Memory.MemoryStore
import AetherEngine.Memory.Quota
import AetherEngine.Foundations.Lines
import AetherEngine.AgentTools.Format
import AetherEngine.AgentTools.Filters
import AetherEngine.Nlq.Run
import AetherEngine.Nlq.Accounting
import AetherEngine.Consensus.WalHistory
import AetherEngine.Consensus.WalCheckpoints
import AetherEngine.Foundations.Traces
import AetherEngine.Foundations.Channels
import AetherEngine.Foundations.Upserts
import AetherEngine.Shard.Pipeline
import AetherEngine.Shard.PipelineEnd
import AetherEngine.Shard.Replication
import AetherEngine.Cluster.Placement
import AetherEngine.Cluster.RaftPlacement
import AetherEngine.Cluster.VectorPlacement
import AetherEngine.Shard.RaftSweep
import AetherEngine.Shard.VectorReplicas
import AetherEngine.Foundations.Words
import AetherEngine.Coordinator.Tokens
import AetherEngine.Coordinator.Operator
import AetherEngine.Foundations.Keyed
import AetherEngine.Shard.ReconcileConvergence
import AetherEngine.Coordinator.Sightings
import AetherEngine.Coordinator.Rebuild
import AetherEngine.Foundations.ReplicatedLog
import AetherEngine.Shard.RaftIngestion
import AetherEngine.Shard.RaftDurability
