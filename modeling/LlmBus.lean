import LlmBus.Foundation.Text
import LlmBus.Foundation.Double
import LlmBus.Foundation.KeyedTable
import LlmBus.Foundation.Transaction
import LlmBus.Foundation.Utf8
import LlmBus.Foundation.Interpreter
import LlmBus.Foundation.Base64
import LlmBus.Foundation.FormData
import LlmBus.Foundation.Calendar
import LlmBus.Foundation.Uuid
import LlmBus.Foundation.Timestamp
import LlmBus.Schema
import LlmBus.Wire
import LlmBus.RoundTrip
import LlmBus.Providers
import LlmBus.Cost
import LlmBus.Retry
import LlmBus.Store
import LlmBus.StoreSteps
import LlmBus.StoreFailures
import LlmBus.RateLimit
import LlmBus.Ceilings
import LlmBus.WebAuth
import LlmBus.Server
import LlmBus.Bus
import LlmBus.Processing
import LlmBus.RetryTrace
import LlmBus.JobRun
import LlmBus.Delivery
import LlmBus.Network
import LlmBus.Lifecycle
import LlmBus.Consistency
import LlmBus.Conduct
import LlmBus.AtLeastOnce
import LlmBus.Ledger
import LlmBus.Foundation.Pacing
import LlmBus.Foundation.Log
import LlmBus.Foundation.Concurrency
import LlmBus.BucketSchedule
import LlmBus.Dashboard
import LlmBus.CostsBind
import LlmBus.Foundation.Polling
import LlmBus.Polling
import LlmBus.Refusal
import LlmBus.Topology
import LlmBus.Connections
import LlmBus.Foundation.Http
import LlmBus.Framing
import LlmBus.Foundation.Guarded
import LlmBus.Callbacks
import LlmBus.Foundation.Timeline
import LlmBus.PriceHistory
import LlmBus.BackoffLimits
import LlmBus.ConnectionString
import LlmBus.Foundation.Replay
import LlmBus.LimiterRuns
import LlmBus.Foundation.Duration
import LlmBus.RetryBudget
import LlmBus.Foundation.Markup
import LlmBus.Foundation.Figures
import LlmBus.DashboardPage
import LlmBus.PolicyPage
import LlmBus.Foundation.Forms
import LlmBus.UntouchedForm
import LlmBus.Foundation.IsoFormat
import LlmBus.Foundation.Isolation
import LlmBus.PolicyMigration
import LlmBus.BucketReference
import LlmBus.Foundation.IntLiteral
import LlmBus.Foundation.UuidSpelling
import LlmBus.JobIds
import LlmBus.Adapters
import LlmBus.SdkRuns
import LlmBus.Foundation.Answers
import LlmBus.Settings
import LlmBus.Wiring
import LlmBus.SerialWorker
import LlmBus.Foundation.JsonText
import LlmBus.StoreText
import LlmBus.CallbackSender
import LlmBus.Recovery
import LlmBus.Foundation.Observation
import LlmBus.Outsider
import LlmBus.Foundation.LastWrite
import LlmBus.PolicyChain
import LlmBus.Foundation.Hosts
import LlmBus.WorkerBoot
