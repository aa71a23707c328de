import MpesaMcp.Approvals.Routes
import MpesaMcp.Mcp.Server
import MpesaMcp.Observability.Tracing
import MpesaMcp.Operator.Routes

/-!
# The server: HTTP routes and MCP tools over one container

A `Server` is a container behind both of its interfaces. A request runs under a correlation id, which
its response carries, and so does a tool call; every audit event is saved with the id it was logged
under.

The container reads its surroundings `env`. What the server draws for itself, the correlation ids, the
ids and times of audit events and the time the identity of an operator is checked at, it draws from
surroundings of its own (`web`).
-/

set_option autoImplicit false

namespace MpesaMcp

open Library Python

/-- A container behind the routes and the tools. -/
structure Server (τ π ρ : Type) extends McpDependencies τ π ρ where
  runtimeSettings : RuntimeSettings := {}

/-- What the server runs in. -/
structure Surroundings where
  env : Env
  web : Env
  jwt : PyJwt
  identityProvider : OidcServer
  pydantic : Pydantic

/-- The state of a container, with the rows of its audit repository. -/
structure AuditedWorld (τ π : Type) where
  app : World τ π
  logging : Ambient := {}
  auditRows : List AuditEventRow := []

/-- The state of the server. -/
structure ServerWorld (τ π ρ : Type) extends AuditedWorld τ π where
  limiter : ρ
  identities : OidcWorld := {}

/-- A server that starts over given stores. -/
def ServerWorld.start {τ π ρ : Type} (transactions : τ) (provider : π) (limiter : ρ) :
    ServerWorld τ π ρ where
  app := MpesaMcp.start transactions provider
  limiter := limiter

/-- `InMemoryAuditRepository.list_recent_events`. -/
def listRecentEvents (limit : Int) (rows : List AuditEventRow) : List AuditEventRow :=
  takeLimit limit (rows.mergeSort fun s t => decide (t.createdAt ≤ s.createdAt))

variable {τ π ρ : Type} (surroundings : Surroundings) (server : Server τ π ρ)

/-- How the container answers a call of a service, under a correlation id. -/
def handleAudited (container : AppContainer τ π) (env web : Env) (correlationId : String) :
    Handler Exn Msg.Answer (AuditedWorld τ π)
  | .logEvent event, w =>
    let r := handle env container (.logEvent event) w.app
    (r.1, {
      app := r.2
      logging := ((w.logging.uuid4 web).2.now web).2
      auditRows := w.auditRows ++ [event.row web (some correlationId) w.logging] })
  | m, w =>
    let r := handle env container m w.app
    (r.1, { w with app := r.2 })

/-- Run a method of a service under a correlation id. -/
def Server.serve {α : Type} (correlationId : String) (method : App α) (w : ServerWorld τ π ρ) :
    Except Exn α × ServerWorld τ π ρ :=
  let r := Prog.run (handleAudited server.toAppContainer surroundings.env surroundings.web
    correlationId) method w.toAuditedWorld
  (r.1, { w with toAuditedWorld := r.2 })

/-! ## Tools -/

/-- How the server answers a call of a tool. -/
def handleTool (correlationId : String) : Handler Exn McpMsg.Answer (ServerWorld τ π ρ)
  | .allow key limit windowSeconds, w =>
    let r := server.rateLimiter.allow surroundings.env key limit windowSeconds
      (w.app.ambient, w.limiter)
    (r.1, { w with app := { w.app with ambient := r.2.1 }, limiter := r.2.2 })
  | .initiateStkPush args, w =>
    server.serve surroundings correlationId
      (server.paymentService.initiateStkPush surroundings.env.toRuntime args) w
  | .checkTransactionStatus checkoutRequestId, w =>
    server.serve surroundings correlationId
      (server.transactionService.checkTransactionStatus checkoutRequestId) w
  | .generateReceipt checkoutRequestId, w =>
    server.serve surroundings correlationId (ReceiptService.generateReceipt checkoutRequestId) w
  | .getTodaySummary, w =>
    server.serve surroundings correlationId AnalyticsService.getTodaySummary w
  | .getFailedTransactions, w =>
    server.serve surroundings correlationId AnalyticsService.getFailedTransactions w
  | .executeApprovedPayment approvalId operatorId, w =>
    server.serve surroundings correlationId
      (PaymentService.executeApprovedPayment approvalId operatorId) w
  | .rejectRequest approvalId, w =>
    server.serve surroundings correlationId (ApprovalService.rejectRequest approvalId) w
  | .runReconciliation, w =>
    server.serve surroundings correlationId server.reconciliationService.runReconciliation w

/-- `with_correlation_context`: a tool call runs under a new id. -/
def callTool (call : ToolCall) (w : ServerWorld τ π ρ) :
    Except Exn McpToolResponse × ServerWorld τ π ρ :=
  let context := correlationContext surroundings.web none none w.logging
  Prog.run (handleTool surroundings server context.1)
    (createToolHandlers surroundings.pydantic server.toMcpDependencies call)
    { w with logging := context.2 }

/-! ## Routes -/

/-- How the server answers a call of a route. -/
def handleHttp (correlationId : String) : Handler Exn HttpMsg.Answer (ServerWorld τ π ρ)
  | .getOperatorPrincipal authorization, w =>
    let r := Prog.run (handleOidc surroundings.web surroundings.jwt surroundings.identityProvider)
      (getOperatorPrincipal server.runtimeSettings authorization) w.identities
    (r.1, { w with identities := r.2 })
  | .handleStkCallback request, w =>
    server.serve surroundings correlationId
      (server.callbackRoute.post surroundings.env.toRuntime request) w
  | .listPendingRequests, w =>
    server.serve surroundings correlationId ApprovalService.listPendingRequests w
  | .expireStaleApprovals, w =>
    server.serve surroundings correlationId ApprovalService.expireStaleApprovals w
  | .getApprovalRequest approvalId, w =>
    server.serve surroundings correlationId (ApprovalService.getApprovalRequest approvalId) w
  | .executeApprovedPayment approvalId operatorId, w =>
    server.serve surroundings correlationId
      (PaymentService.executeApprovedPayment approvalId operatorId) w
  | .rejectRequest approvalId, w =>
    server.serve surroundings correlationId (ApprovalService.rejectRequest approvalId) w
  | .listRecentTransactions limit, w =>
    server.serve surroundings correlationId (ask (.transactions (.listRecentTransactions limit))) w
  | .getTransaction transactionId, w =>
    server.serve surroundings correlationId (ask (.transactions (.getTransaction transactionId))) w
  | .listRecentEvents limit, w => (.ok (listRecentEvents limit w.auditRows), w)
  | .getTodaySummary, w =>
    server.serve surroundings correlationId AnalyticsService.getTodaySummary w
  | .generateReceiptByReference reference, w =>
    server.serve surroundings correlationId
      (ReceiptService.generateReceiptByReference reference) w
  | .runReconciliation, w =>
    server.serve surroundings correlationId server.reconciliationService.runReconciliation w
  | .snapshot, w => (.ok w.app.metrics, w)

/-- The routes of the application. -/
inductive Route
  | handleStkCallback (request : CallbackRequest)
  | listPendingApprovals
  | expireStaleApprovals
  | getApproval (approvalId : String)
  | approvePaymentRequest (approvalId : String)
  | rejectPaymentRequest (approvalId : String)
  | listTransactions (limit : Option String)
  | getTransaction (transactionId : String)
  | listAuditEvents (limit : Option String)
  | getTodayAnalytics
  | getSystemStatus
  | getReceipt (reference : String)
  | runReconciliation
  | health
  | metrics

/-- A request to one of the routes, with the headers that are read. -/
structure RouteRequest where
  route : Route
  authorization : Option String := none
  correlationId : Option String := none

/-- The status of a response of the callback route. -/
def CallbackResponse.statusCode : CallbackResponse → Nat
  | .processed _ => 200
  | .json statusCode _ _ => statusCode
  | .httpException statusCode _ => statusCode

open ApprovalRoutes OperatorRoutes in
/-- The program of a route. -/
def Route.handler (pydantic : Pydantic) (settings : RuntimeSettings)
    (authorization : Option String) : Route → Http RouteResponse
  | .handleStkCallback request => do
    let response ← Http.call (.handleStkCallback request)
    pure ⟨response.statusCode, .callback response⟩
  | .listPendingApprovals => ApprovalRoutes.listPendingApprovals authorization
  | .expireStaleApprovals => ApprovalRoutes.expireStaleApprovals authorization
  | .getApproval approvalId => ApprovalRoutes.getApproval authorization approvalId
  | .approvePaymentRequest approvalId => ApprovalRoutes.approvePaymentRequest authorization approvalId
  | .rejectPaymentRequest approvalId => ApprovalRoutes.rejectPaymentRequest authorization approvalId
  | .listTransactions limit => OperatorRoutes.listTransactions pydantic authorization limit
  | .getTransaction transactionId => OperatorRoutes.getTransaction authorization transactionId
  | .listAuditEvents limit => OperatorRoutes.listAuditEvents pydantic authorization limit
  | .getTodayAnalytics => OperatorRoutes.getTodayAnalytics authorization
  | .getSystemStatus => OperatorRoutes.getSystemStatus authorization settings
  | .getReceipt reference => OperatorRoutes.getReceipt authorization reference
  | .runReconciliation => OperatorRoutes.runReconciliation authorization
  | .health => pure { body := .health settings.storageMode }
  | .metrics => do
    let snapshot ← Http.call .snapshot
    pure { body := .metrics snapshot }

/-- `infrastructure_unavailable_handler`: the exception that is answered; any other leaves the
application. -/
def answered (route : Http RouteResponse) : Http RouteResponse := do
  match ← route.attempt with
  | .ok response => pure response
  | .error (.infrastructureUnavailable message) => pure ⟨503, .unavailable message⟩
  | .error e => .raise e

/-- What a client receives; the correlation id is a header. -/
structure HttpReply where
  response : RouteResponse
  correlationId : Option String

/-- `correlation_id_middleware` around a route. An exception that nothing answers is answered outside of
it, without the header. -/
def handleRequest (request : RouteRequest) (w : ServerWorld τ π ρ) :
    HttpReply × ServerWorld τ π ρ :=
  let context := correlationContext surroundings.web none request.correlationId w.logging
  let r := Prog.run (handleHttp surroundings server context.1)
    (answered (request.route.handler surroundings.pydantic server.runtimeSettings
      request.authorization)) { w with logging := context.2 }
  match r.1 with
  | .ok response => (⟨response, some context.1⟩, r.2)
  | .error _ => (⟨⟨500, .internalServerError⟩, none⟩, r.2)

/-! ## Runs -/

/-- What reaches the server. -/
inductive ServerInput
  | request (request : RouteRequest)
  | tool (call : ToolCall)

/-- What it answers. -/
inductive ServerOutput
  | reply (reply : HttpReply)
  | tool (response : Except Exn McpToolResponse)

/-- One request or tool call, from its arrival to its answer. -/
def serverStep : ServerInput → ServerWorld τ π ρ → ServerOutput × ServerWorld τ π ρ
  | .request request, w =>
    let r := handleRequest surroundings server request w
    (.reply r.1, r.2)
  | .tool call, w =>
    let r := callTool surroundings server call w
    (.tool r.1, r.2)

/-- One step of a run of the server. -/
abbrev ServerStep (τ π ρ : Type) := Step (ServerWorld τ π ρ) ServerInput ServerOutput

end MpesaMcp
