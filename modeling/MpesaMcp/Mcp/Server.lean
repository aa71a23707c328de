import MpesaMcp.App.Container
import MpesaMcp.Mcp.Tools

/-!
# MCP server setup

`createToolHandlers` gives every registered tool the services, the limits and the policy of the
container. `mcpStep` runs one tool call to its end; `McpWorld` is the state of the application behind
the server.

`pushCalls` is no state of the application: it records the calls `PaymentService.initiate_stk_push`
received.
-/

set_option autoImplicit false

namespace MpesaMcp

open Library Python

/-- The settings of the rate limits and of the tool policy. -/
structure McpSettings extends ToolPolicySettings where
  rateLimitEnabled : Bool := true
  rateLimitWindowSeconds : Int := 60
  rateLimitMaxStkPush : Int := 5
  rateLimitMaxApprovalActions : Int := 10
  rateLimitMaxStatusChecks : Int := 30

/-- The container of the server: the services, and a rate limiter with states `ρ`. -/
structure McpDependencies (τ π ρ : Type) extends AppContainer τ π where
  mcpSettings : McpSettings := {}
  rateLimiter : RateLimiter ρ

/-- A container with `RATE_LIMIT_MODE=memory`. -/
def McpDependencies.memory {τ π : Type} (container : AppContainer τ π) (mcpSettings : McpSettings) :
    McpDependencies τ π RateWindows where
  toAppContainer := container
  mcpSettings := mcpSettings
  rateLimiter := InMemoryRateLimiter

namespace McpDependencies

variable {τ π ρ : Type} (self : McpDependencies τ π ρ)

def transactionService : TransactionService where
  policy := { maxStkAmount := self.settings.maxStkAmount }

def toolPolicy : ToolPolicyEngine := .fromSettings self.mcpSettings.toToolPolicySettings

/-- The rate limit arguments of a tool with the given limit. -/
def limits (maxRequests : Int) : RateLimitArguments where
  enabled := self.mcpSettings.rateLimitEnabled
  windowSeconds := self.mcpSettings.rateLimitWindowSeconds
  maxRequests := maxRequests

end McpDependencies

/-- A call of a registered tool. -/
inductive ToolCall
  | initiateStkPush (phoneNumber amount accountReference description idempotencyKey : PyValue)
  | initiatePayment (phoneNumber amount accountReference description idempotencyKey : PyValue)
  | checkTransactionStatus (checkoutRequestId : PyValue)
  | checkPaymentStatus (providerTransactionId : PyValue)
  | generateReceipt (checkoutRequestId : PyValue)
  | getTodaySummary
  | getFailedTransactions
  | approvePaymentRequest (approvalId : PyValue)
  | rejectPaymentRequest (approvalId : PyValue)
  | runReconciliation

/-- The dictionary the two payment handlers build. -/
def paymentInput (phoneNumber amount accountReference description idempotencyKey : PyValue) :
    PyDict := [
  ("phone_number", phoneNumber),
  ("amount", amount),
  ("account_reference", accountReference),
  ("description", description),
  ("idempotency_key", idempotencyKey)]

section Handlers

variable {τ π ρ : Type} (pydantic : Pydantic) (container : McpDependencies τ π ρ)

/-- Create MCP tool handlers that delegate to the existing tool wrappers. -/
def createToolHandlers : ToolCall → Mcp McpToolResponse
  | .initiateStkPush phoneNumber amount accountReference description idempotencyKey =>
    initiateStkPushTool pydantic container.toolPolicy
      (container.limits container.mcpSettings.rateLimitMaxStkPush)
      (paymentInput phoneNumber amount accountReference description idempotencyKey)
  | .initiatePayment phoneNumber amount accountReference description idempotencyKey =>
    initiatePaymentTool pydantic container.toolPolicy
      (container.limits container.mcpSettings.rateLimitMaxStkPush)
      (paymentInput phoneNumber amount accountReference description idempotencyKey)
  | .checkTransactionStatus checkoutRequestId =>
    checkTransactionStatusTool pydantic container.toolPolicy
      (container.limits container.mcpSettings.rateLimitMaxStatusChecks)
      [("checkout_request_id", checkoutRequestId)]
  | .checkPaymentStatus providerTransactionId =>
    checkPaymentStatusTool pydantic container.toolPolicy
      (container.limits container.mcpSettings.rateLimitMaxStatusChecks)
      [("provider_transaction_id", providerTransactionId)]
  | .generateReceipt checkoutRequestId =>
    generateReceiptTool pydantic container.toolPolicy [("checkout_request_id", checkoutRequestId)]
  | .getTodaySummary => getTodaySummaryTool container.toolPolicy []
  | .getFailedTransactions => getFailedTransactionsTool container.toolPolicy []
  | .approvePaymentRequest approvalId =>
    approvePaymentRequestTool pydantic container.toolPolicy
      (container.limits container.mcpSettings.rateLimitMaxApprovalActions)
      [("approval_id", approvalId)]
  | .rejectPaymentRequest approvalId =>
    rejectPaymentRequestTool pydantic container.toolPolicy
      (container.limits container.mcpSettings.rateLimitMaxApprovalActions)
      [("approval_id", approvalId)]
  | .runReconciliation => runReconciliationTool container.toolPolicy []

end Handlers

/-- The state of the application behind the server. -/
structure McpWorld (τ π ρ : Type) where
  app : World τ π
  limiter : ρ
  pushCalls : List InitiateStkPush := []

variable {τ π ρ : Type} (env : Env) (pydantic : Pydantic) (container : McpDependencies τ π ρ)

/-- Run a method of a service. -/
def serve {α : Type} (method : App α) (w : McpWorld τ π ρ) : Except Exn α × McpWorld τ π ρ :=
  let r := Prog.run (handle env container.toAppContainer) method w.app
  (r.1, { w with app := r.2 })

/-- How the container answers a call of a tool. -/
def handleMcp : Handler Exn McpMsg.Answer (McpWorld τ π ρ)
  | .allow key limit windowSeconds, w =>
    let r := container.rateLimiter.allow env key limit windowSeconds (w.app.ambient, w.limiter)
    (r.1, { w with app := { w.app with ambient := r.2.1 }, limiter := r.2.2 })
  | .initiateStkPush args, w =>
    serve env container (container.paymentService.initiateStkPush env.toRuntime args)
      { w with pushCalls := w.pushCalls ++ [args] }
  | .checkTransactionStatus checkoutRequestId, w =>
    serve env container (container.transactionService.checkTransactionStatus checkoutRequestId) w
  | .generateReceipt checkoutRequestId, w =>
    serve env container (ReceiptService.generateReceipt checkoutRequestId) w
  | .getTodaySummary, w => serve env container AnalyticsService.getTodaySummary w
  | .getFailedTransactions, w => serve env container AnalyticsService.getFailedTransactions w
  | .executeApprovedPayment approvalId operatorId, w =>
    serve env container (PaymentService.executeApprovedPayment approvalId operatorId) w
  | .rejectRequest approvalId, w =>
    serve env container (ApprovalService.rejectRequest approvalId) w
  | .runReconciliation, w => serve env container container.reconciliationService.runReconciliation w

/-- Run one tool call to its end. -/
def mcpStep (call : ToolCall) (w : McpWorld τ π ρ) :
    Except Exn McpToolResponse × McpWorld τ π ρ :=
  Prog.run (handleMcp env container) (createToolHandlers pydantic container call) w

/-- One step of a run of the server. -/
abbrev McpStep (τ π ρ : Type) := Step (McpWorld τ π ρ) ToolCall (Except Exn McpToolResponse)

end MpesaMcp
