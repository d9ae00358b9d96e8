import Sylph.Lib.Machine
import Sylph.Lib.ReadWrite
import Sylph.Lib.Ecto
import Sylph.Lib.Tally
import Sylph.Lib.Edges
import Sylph.Lib.Limiter
import Sylph.DataProcessor.WorkerPool
import Sylph.DataProcessor.Accounting
import Sylph.DataProcessor.Worker
import Sylph.DataProcessor.Monitor
import Sylph.DataProcessor.System
import Sylph.DataProcessor.Completion
import Sylph.DataProcessor.Survival
import Sylph.DataProcessor.Telemetry
import Sylph.DataProcessor.Journal
import Sylph.DataProcessor.Bookkeeping
import Sylph.DataProcessor.Death
import Sylph.DataProcessor.BlockHistory
import Sylph.DataProcessor.Metrics
import Sylph.DataProcessor.Alerts
import Sylph.Proto.Ethereum
import Sylph.Lib.Tiling
import Sylph.Sync.Tilings
import Sylph.Sync.Syncer
import Sylph.Sync.Chunks
import Sylph.Sync.HistoricalSync
import Sylph.Sync.Genesis
import Sylph.Sync.Submission
import Sylph.Sync.BatchFailures
import Sylph.Sync.Server
import Sylph.Sync.Progress
import Sylph.Sync.StartUp
import Sylph.Sync.ProgressReports
import Sylph.Sync.Incarnations
import Sylph.Schema.ChainSyncStatus
import Sylph.Schema.Reload
import Sylph.Schema.Block
import Sylph.Schema.MissingBlock
import Sylph.Schema.LifeCycle
import Sylph.Schema.PendingBlocks
import Sylph.Schema.ConcurrentFailures
import Sylph.Sync.ChainState
import Sylph.Sync.Heights
import Sylph.Lib.Retry
import Sylph.Cache.Store
import Sylph.Cache.GetOrStore
import Sylph.Lib.Supervisor
import Sylph.DataProcessor.Lives
import Sylph.DataProcessor.Supervision
import Sylph.GRPC.ConnectionRegistry
import Sylph.GRPC.Client
import Sylph.GRPC.Connection
import Sylph.GRPC.EthereumClient
import Sylph.GRPC.Restart
import Sylph.GRPC.Supervision
import Sylph.Ethereum.GetBlockRange
import Sylph.Ethereum.RangeRuns
import Sylph.Ethereum.RangeLoop
import Sylph.Ethereum.RangeEnds
import Sylph.Sync.Pipeline
import Sylph.Ethereum.SubscribeNewBlocks
import Sylph.Ethereum.HealthCheck
import Sylph.Lib.Circle
import Sylph.Ethereum.Selection
import Sylph.Ethereum.Calls
import Sylph.Lib.Separated
import Sylph.Ethereum.Config
import Sylph.Ethereum.StartUp
import Sylph.Lib.Bytes
import Sylph.Lib.Hex
import Sylph.Lib.Numbers
import Sylph.Ethereum.Types
import Sylph.Ethereum.TokenTransfers
import Sylph.Ethereum.Conversion
import Sylph.Ethereum.FetchBlockData
import Sylph.Ethereum.BlockNumbers
import Sylph.Lib.Base64
import Sylph.Lib.Except
import Sylph.Lib.AsyncStream
import Sylph.Solana.Transaction
import Sylph.Solana.Client
import Sylph.Solana.Failover
import Sylph.Solana.SingleCall
import Sylph.Solana.RangeRequests
import Sylph.Solana.Subscription
import Sylph.Solana.Rotation
import Sylph.Solana.Clones
import Sylph.Solana.Conversion
import Sylph.Lib.Rust
import Sylph.Solana.Base58
import Sylph.Proto.Solana
import Sylph.Solana.Parser
import Sylph.Solana.Service
import Sylph.Solana.Ownership
import Sylph.Solana.Indexing
import Sylph.Solana.GetBlock
import Sylph.Lib.Relay
import Sylph.Solana.RangeStream
import Sylph.Solana.NewBlocksStream
import Sylph.Solana.TransferMints
import Sylph.Solana.Findings
import Sylph.Solana.Categories
import Sylph.Solana.DexInstructions
import Sylph.Solana.NftMints
