import MpesaMcp.Library.Keyed
import MpesaMcp.Library.Permuted
import MpesaMcp.Library.Prog
import MpesaMcp.Library.Trace
import MpesaMcp.Python.Text
import MpesaMcp.Python.Float
import MpesaMcp.Python.Json
import MpesaMcp.Python.Value
import MpesaMcp.App.Environment
import MpesaMcp.Transactions.StateMachine
import MpesaMcp.Storage.Postgres
import MpesaMcp.App.Messages
import MpesaMcp.Approvals.Service
import MpesaMcp.Safety.Policy
import MpesaMcp.Services.PaymentService
import MpesaMcp.Callbacks.Handlers
import MpesaMcp.Callbacks.Replay
import MpesaMcp.Callbacks.Routes
import MpesaMcp.Analytics.Service
import MpesaMcp.App.Container
import MpesaMcp.Laws.Handling
import MpesaMcp.Laws.Frames
import MpesaMcp.Laws.Approvals
import MpesaMcp.Laws.Payments
import MpesaMcp.Laws.Steps
import MpesaMcp.Laws.PaymentGating
import MpesaMcp.Laws.ApprovalFinality
import MpesaMcp.Daraja.Client
import MpesaMcp.Laws.Callbacks
import MpesaMcp.Laws.Deliveries
import MpesaMcp.Laws.Pushes
import MpesaMcp.Laws.TransactionSteps
import MpesaMcp.Laws.TransactionLifecycle
import MpesaMcp.Laws.CallbackAcceptance
import MpesaMcp.Laws.ReplayProtection
import MpesaMcp.Laws.Database
import MpesaMcp.Laws.CallbackRedelivery
import MpesaMcp.Laws.RowStores
import MpesaMcp.Laws.ProviderDecline
import MpesaMcp.Laws.IdempotentPushes
import MpesaMcp.Laws.OrphanPayments
import MpesaMcp.Library.Interleave
import MpesaMcp.Library.Protocol
import MpesaMcp.Laws.ConcurrentPushes
import MpesaMcp.Laws.StatusQueries
import MpesaMcp.Laws.ReconciliationReports
import MpesaMcp.Laws.Executions
import MpesaMcp.Laws.KeyedPayments
import MpesaMcp.Laws.ApprovedPayload
import MpesaMcp.Laws.CallbackRace
import MpesaMcp.Laws.ConcurrentUpdates
import MpesaMcp.Laws.ConcurrentReviews
import MpesaMcp.Laws.AuditProtocol
import MpesaMcp.Laws.AuditTrail
import MpesaMcp.Library.FixedWindow
import MpesaMcp.RateLimit.Limiter
import MpesaMcp.Policy.ToolPolicy
import MpesaMcp.Services.TransactionService
import MpesaMcp.Mcp.Schemas
import MpesaMcp.Mcp.Tools
import MpesaMcp.Mcp.Server
import MpesaMcp.Laws.ToolCalls
import MpesaMcp.Laws.RateLimits
import MpesaMcp.Laws.McpClients
import MpesaMcp.Laws.RepositoryAgreement
import MpesaMcp.RateLimit.Redis
import MpesaMcp.Laws.Limiters
import MpesaMcp.Laws.CircuitBreaker
import MpesaMcp.Laws.RedisLimiter
import MpesaMcp.Library.Delimited
import MpesaMcp.Laws.DarajaCalls
import MpesaMcp.Laws.CallbackTotality
import MpesaMcp.Storage.PostgresAudit
import MpesaMcp.App.PostgresContainer
import MpesaMcp.Laws.DatabaseOutage
import MpesaMcp.App.CallbackServices
import MpesaMcp.Laws.RejectedCallbacks
import MpesaMcp.Laws.Receipts
import MpesaMcp.Laws.DerivedKeys
import MpesaMcp.Laws.ReplayHistory
import MpesaMcp.Laws.ResetHints
import MpesaMcp.Laws.Listings
import MpesaMcp.Laws.ReconciliationFindings
import MpesaMcp.Laws.ReplayKeys
import MpesaMcp.Library.Retry
import MpesaMcp.Laws.RetryLoop
import MpesaMcp.App.Config
import MpesaMcp.App.Startup
import MpesaMcp.Laws.StartupSoundness
import MpesaMcp.Laws.DailyAnalytics
import MpesaMcp.Auth.RoleMapping
import MpesaMcp.Auth.Oidc
import MpesaMcp.Auth.Security
import MpesaMcp.Laws.OperatorAccess
import MpesaMcp.Laws.OperatorFetches
import MpesaMcp.Laws.ReviewBurden
import MpesaMcp.Python.Isoformat
import MpesaMcp.Observability.Tracing
import MpesaMcp.App.Http
import MpesaMcp.Approvals.Routes
import MpesaMcp.Operator.Routes
import MpesaMcp.App.Server
import MpesaMcp.Laws.ServerSteps
import MpesaMcp.Laws.StoredRequests
import MpesaMcp.Laws.SeparationOfDuties
import MpesaMcp.Laws.Authority
import MpesaMcp.Laws.RefusedRequests
import MpesaMcp.Laws.AuditLog
import MpesaMcp.Library.Markup
import MpesaMcp.Operator.Ui
import MpesaMcp.Laws.OperatorConsole
import MpesaMcp.Logging.Config
import MpesaMcp.Laws.LogLines
import MpesaMcp.Laws.SharedLimiter
import MpesaMcp.Library.Ballot
import MpesaMcp.Laws.Ballots
import MpesaMcp.Laws.BallotRuns
import MpesaMcp.Laws.ExecutedApprovals
import MpesaMcp.Laws.Settlements
import MpesaMcp.Laws.DarajaOutage
import MpesaMcp.Laws.Books
