import LLMRuntime.Foundation.Transition
import LLMRuntime.Foundation.TokenBucket
import LLMRuntime.Foundation.Ledger
import LLMRuntime.Foundation.FirstMin
import LLMRuntime.Foundation.Custody
import LLMRuntime.Core.Request
import LLMRuntime.Core.Response
import LLMRuntime.Core.Admission
import LLMRuntime.Core.RateLimit
import LLMRuntime.Core.Services
import LLMRuntime.Core.Lifecycle
import LLMRuntime.Metrics.Collector
import LLMRuntime.Backends.Base
import LLMRuntime.Workers.Manager
import LLMRuntime.Workers.ItemMachine
import LLMRuntime.Workers.BatchRefinement
import LLMRuntime.Workers.Fate
import LLMRuntime.Workers.BatchOutcome
import LLMRuntime.Workers.Isolation
import LLMRuntime.Workers.CompatibilityMode
import LLMRuntime.Scheduler.Batching
import LLMRuntime.Scheduler.Priority
import LLMRuntime.Scheduler.PrioritySystem
import LLMRuntime.Scheduler.Effects
import LLMRuntime.Scheduler.Conservation
import LLMRuntime.Scheduler.Overtaking
import LLMRuntime.Scheduler.Lock
import LLMRuntime.Scheduler.Wakeup
import LLMRuntime.Scheduler.Fifo
import LLMRuntime.Api.Schemas
import LLMRuntime.Api.Streaming
import LLMRuntime.Api.Routes
import LLMRuntime.Api.InFlight
import LLMRuntime.Api.RequestPhases
import LLMRuntime.Api.Accounting
import LLMRuntime.Api.QueueCap
import LLMRuntime.Backends.Mock
import LLMRuntime.Api.Traffic
import LLMRuntime.Api.Rejections
import LLMRuntime.Foundation.BatchQueue
import LLMRuntime.Scheduler.Sequential
import LLMRuntime.Api.TerminalEvents
import LLMRuntime.Backends.Server
import LLMRuntime.Core.Lifespan
import LLMRuntime.Foundation.Json
import LLMRuntime.Foundation.JsonLoads
import LLMRuntime.Foundation.TextLines
import LLMRuntime.Foundation.JsonDumps
import LLMRuntime.Backends.ChunkReader
import LLMRuntime.Api.StreamText
import LLMRuntime.Backends.ChunkStream
import LLMRuntime.Foundation.Exposition
import LLMRuntime.Foundation.FloatText
import LLMRuntime.Metrics.Latency
import LLMRuntime.Metrics.Prometheus
import LLMRuntime.Metrics.ExpositionFormat
import LLMRuntime.Scheduler.FifoModel
import LLMRuntime.Scheduler.PriorityModel
import LLMRuntime.Workers.Execution
import LLMRuntime.Workers.Pool
import LLMRuntime.Workers.Shutdown
import LLMRuntime.Scheduler.Drain
import LLMRuntime.Scheduler.WaitingBatch
import LLMRuntime.Foundation.Buckets
import LLMRuntime.Metrics.Snapshot
import LLMRuntime.Metrics.HistogramExport
import LLMRuntime.Metrics.LabelSafety
import LLMRuntime.Foundation.WindowMean
import LLMRuntime.Benchmarks.LoadTest
import LLMRuntime.Backends.ServerSession
import LLMRuntime.Foundation.DoubleRounding
import LLMRuntime.Foundation.Csv
import LLMRuntime.Metrics.Gpu
import LLMRuntime.Metrics.GpuReadBack
import LLMRuntime.Metrics.GpuFallback
import LLMRuntime.Api.Timeline
import LLMRuntime.Api.TimelineOrder
import LLMRuntime.Foundation.StayAhead
import LLMRuntime.Core.GreedyAdmission
import LLMRuntime.Api.Delivery
import LLMRuntime.Workers.BatchAccounting
import LLMRuntime.Scheduler.FifoOrder
import LLMRuntime.Scheduler.Linearization
import LLMRuntime.Metrics.Growth
import LLMRuntime.Utils.Logging
import LLMRuntime.Workers.Completion
import LLMRuntime.Api.ItemMoves
import LLMRuntime.Workers.RequestAgreement
import LLMRuntime.Workers.RequestRefinement
