import MpesaMcp.Analytics.Service
import MpesaMcp.Mcp.Schemas
import MpesaMcp.Policy.ToolPolicy
import MpesaMcp.RateLimit.Limiter
import MpesaMcp.Reconciliation.Service
import MpesaMcp.Services.PaymentService
import MpesaMcp.Services.ReceiptService
import MpesaMcp.Services.TransactionService

/-!
# MCP tool definitions

Every tool asks the tool policy, validates its input, asks the rate limiter where it has a limit, and
delegates to one method of one service. `guardedTool` is that order of steps; a tool is `guardedTool`
at its own name, schema, key and method. An exception of a service leaves the tool; an exception of
the rate limiter does not.
-/

set_option autoImplicit false

namespace MpesaMcp

open Library Python

/-- One call that leaves a tool: the rate limiter, or a method of a service. -/
inductive McpMsg
  | allow (key : String) (limit windowSeconds : Int)
  | initiateStkPush (args : InitiateStkPush)
  | checkTransactionStatus (checkoutRequestId : String)
  | generateReceipt (checkoutRequestId : String)
  | getTodaySummary
  | getFailedTransactions
  | executeApprovedPayment (approvalId operatorId : String)
  | rejectRequest (approvalId : String)
  | runReconciliation

/-- What each call returns. -/
abbrev McpMsg.Answer : McpMsg → Type
  | .allow _ _ _ => RateLimitDecision
  | .initiateStkPush _ => PaymentResponse
  | .checkTransactionStatus _ => TransactionStatusServiceResponse
  | .generateReceipt _ => ReceiptServiceResponse
  | .getTodaySummary => DailyAnalyticsSummary
  | .getFailedTransactions => List PendingTransaction
  | .executeApprovedPayment _ _ => ApprovalExecutionResponse
  | .rejectRequest _ => ApprovalServiceResponse
  | .runReconciliation => ReconciliationSummary

/-- A tool. -/
abbrev Mcp (α : Type) := Prog Exn McpMsg.Answer α

/-- Make one call. -/
def Mcp.call (m : McpMsg) : Mcp m.Answer := Prog.send m

@[simp] theorem Mcp.run_call {σ : Type} (h : Handler Exn McpMsg.Answer σ) (m : McpMsg) (s : σ) :
    @Prog.run Exn McpMsg McpMsg.Answer (no_index m.Answer) σ h (Mcp.call m) s = h m s :=
  Prog.run_send h m s

/-- What a tool response carries beside its status: the parts of a service response that are dumped
into `data`, or the numbers of a rate limit. -/
inductive McpData
  | empty
  | rateLimit (key : String) (limit resetAfterSeconds : Int)
  | payment (response : PaymentResponse)
  | transactionStatus (response : TransactionStatusServiceResponse)
  | receipt (response : ReceiptServiceResponse)
  | summary (summary : DailyAnalyticsSummary)
  | transactions (transactions : List PendingTransaction)
  | execution (response : ApprovalExecutionResponse)
  | approval (response : ApprovalServiceResponse)
  | reconciliation (summary : ReconciliationSummary)

/-- Structured MCP tool response. -/
structure McpToolResponse where
  status : String
  allowed : Bool
  reason : String
  requiresApproval : Bool := false
  data : McpData := .empty
  errors : List String := []

/-- The rate limit arguments of a tool. -/
structure RateLimitArguments where
  enabled : Bool := false
  windowSeconds : Int := 60
  maxRequests : Int

/-- `_check_tool_policy`. -/
def checkToolPolicy (toolName : String) (toolPolicy : ToolPolicyEngine) : Option McpToolResponse :=
  let decision := toolPolicy.evaluate toolName
  if decision.allowed then none
  else
    some {
      status := decision.status.value
      allowed := false
      reason := decision.reason
      requiresApproval := decision.requiresApproval }

/-- The response of `_check_rate_limit` where the limiter raised. -/
def rateLimiterUnavailable : McpToolResponse where
  status := "infrastructure_unavailable"
  allowed := false
  reason := "Rate limiter unavailable; request rejected safely."

/-- The response of `_check_rate_limit` where the limiter denied. -/
def rateLimited (decision : RateLimitDecision) : McpToolResponse where
  status := "rate_limited"
  allowed := false
  reason := "Rate limit exceeded"
  data := .rateLimit decision.key decision.limit decision.resetAfterSeconds

/-- `_check_rate_limit`. -/
def checkRateLimit (limits : RateLimitArguments) (key : String) : Mcp (Option McpToolResponse) :=
  if !limits.enabled then pure none
  else do
    match ← (Mcp.call (.allow key limits.maxRequests limits.windowSeconds)).attempt with
    | .error _ => pure (some rateLimiterUnavailable)
    | .ok decision => pure (if decision.allowed then none else some (rateLimited decision))

/-- The response to an input its schema does not accept. -/
def invalidInput (toolName : String) (errors : List String) : McpToolResponse where
  status := "invalid_input"
  allowed := false
  reason := "Invalid " ++ toolName ++ " input."
  errors := errors

/-- Make one call of a service and answer with its response. -/
def delegate (m : McpMsg) (respond : m.Answer → McpToolResponse) : Mcp McpToolResponse :=
  respond <$> Mcp.call m

/-- The steps of a tool: its policy, its input, its rate limit where it has one (`limit`), and the
service. -/
def guardedTool {α : Type} (toolName : String) (toolPolicy : ToolPolicyEngine)
    (validated : Except (List String) α) (limit : Option (RateLimitArguments × (α → String)))
    (delegated : α → Mcp McpToolResponse) : Mcp McpToolResponse :=
  match checkToolPolicy toolName toolPolicy with
  | some policyResponse => pure policyResponse
  | none =>
    match validated with
    | .error errors => pure (invalidInput toolName errors)
    | .ok toolInput =>
      match limit with
      | none => delegated toolInput
      | some (limits, key) => do
        match ← checkRateLimit limits (key toolInput) with
        | some rateLimitResponse => pure rateLimitResponse
        | none => delegated toolInput

section Tools

variable (pydantic : Pydantic) (toolPolicy : ToolPolicyEngine) (limits : RateLimitArguments)
  (inputData : PyDict)

/-- What the two payment tools pass on. -/
def InitiateStkPushInput.arguments (toolInput : InitiateStkPushInput) : InitiateStkPush where
  phoneNumber := some toolInput.phoneNumber
  amount := some toolInput.amount
  accountReference := toolInput.accountReference
  description := toolInput.description
  idempotencyKey := toolInput.idempotencyKey

/-- The response of the two payment tools. -/
def paymentToolResponse (paymentResponse : PaymentResponse) : McpToolResponse where
  status := paymentResponse.status.value
  allowed := paymentResponse.allowed
  reason := paymentResponse.reason
  requiresApproval := paymentResponse.requiresApproval
  data := .payment paymentResponse

/-- The delegation of the two payment tools. -/
def delegatePayment (toolInput : InitiateStkPushInput) : Mcp McpToolResponse :=
  delegate (.initiateStkPush toolInput.arguments) paymentToolResponse

/-- Validate MCP input and delegate payment initiation to the payment service. -/
def initiateStkPushTool : Mcp McpToolResponse :=
  guardedTool "initiate_stk_push" toolPolicy (InitiateStkPushInput.modelValidate pydantic inputData)
    (some (limits, fun toolInput => "initiate_stk_push:" ++ toolInput.phoneNumber)) delegatePayment

/-- Validate MCP input and delegate generic payment initiation to the service. -/
def initiatePaymentTool : Mcp McpToolResponse :=
  guardedTool "initiate_payment" toolPolicy (InitiateStkPushInput.modelValidate pydantic inputData)
    (some (limits, fun toolInput => "initiate_payment:" ++ toolInput.phoneNumber)) delegatePayment

/-- The response of the two status tools. -/
def statusToolResponse (transactionResponse : TransactionStatusServiceResponse) :
    McpToolResponse where
  status := transactionResponse.status.value
  allowed := transactionResponse.allowed
  reason := transactionResponse.reason
  data := .transactionStatus transactionResponse
  errors := transactionResponse.errors

/-- The delegation of the two status tools. -/
def delegateStatus (reference : String) : Mcp McpToolResponse :=
  delegate (.checkTransactionStatus reference) statusToolResponse

/-- Validate MCP input and delegate transaction status checks to the service. -/
def checkTransactionStatusTool : Mcp McpToolResponse :=
  guardedTool "check_transaction_status" toolPolicy
    (CheckTransactionStatusInput.modelValidate pydantic inputData)
    (some (limits, fun checkoutRequestId => "check_transaction_status:" ++ checkoutRequestId))
    delegateStatus

/-- Validate MCP input and delegate generic payment status checks to the service. -/
def checkPaymentStatusTool : Mcp McpToolResponse :=
  guardedTool "check_payment_status" toolPolicy
    (CheckPaymentStatusInput.modelValidate pydantic inputData)
    (some (limits, fun providerTransactionId => "check_payment_status:" ++ providerTransactionId))
    delegateStatus

def receiptToolResponse (receiptResponse : ReceiptServiceResponse) : McpToolResponse where
  status := receiptResponse.status.value
  allowed := receiptResponse.allowed
  reason := receiptResponse.reason
  data := .receipt receiptResponse

/-- Validate MCP input and delegate receipt generation to the service. -/
def generateReceiptTool : Mcp McpToolResponse :=
  guardedTool "generate_receipt" toolPolicy (GenerateReceiptInput.modelValidate pydantic inputData)
    none fun checkoutRequestId => delegate (.generateReceipt checkoutRequestId) receiptToolResponse

def summaryToolResponse (summary : DailyAnalyticsSummary) : McpToolResponse where
  status := "ok"
  allowed := true
  reason := "Today's summary retrieved successfully."
  data := .summary summary

/-- Validate MCP input and delegate today's summary to the analytics service. -/
def getTodaySummaryTool : Mcp McpToolResponse :=
  guardedTool "get_today_summary" toolPolicy (GetTodaySummaryInput.modelValidate inputData) none
    fun _ => delegate .getTodaySummary summaryToolResponse

def failedTransactionsToolResponse (failedTransactions : List PendingTransaction) :
    McpToolResponse where
  status := "ok"
  allowed := true
  reason := "Failed transactions retrieved successfully."
  data := .transactions failedTransactions

/-- Validate MCP input and delegate failed transaction lookup to analytics service. -/
def getFailedTransactionsTool : Mcp McpToolResponse :=
  guardedTool "get_failed_transactions" toolPolicy
    (GetFailedTransactionsInput.modelValidate inputData) none
    fun _ => delegate .getFailedTransactions failedTransactionsToolResponse

/-- `_approval_execution_response_to_mcp_response`. -/
def approvalExecutionResponseToMcpResponse (response : ApprovalExecutionResponse) :
    McpToolResponse where
  status := response.status.value
  allowed := response.allowed
  reason := response.reason
  data := .execution response

/-- Validate MCP input and delegate approval execution to the payment service. -/
def approvePaymentRequestTool : Mcp McpToolResponse :=
  guardedTool "approve_payment_request" toolPolicy
    (ApprovePaymentRequestInput.modelValidate pydantic inputData)
    (some (limits, fun approvalId => "approve_payment_request:" ++ approvalId))
    fun approvalId => delegate (.executeApprovedPayment approvalId "mcp_operator")
      approvalExecutionResponseToMcpResponse

/-- `_approval_response_to_mcp_response`. -/
def approvalResponseToMcpResponse (response : ApprovalServiceResponse) : McpToolResponse where
  status := response.status.value
  allowed := response.allowed
  reason := response.reason
  data := .approval response

/-- Validate MCP input and delegate rejection to the approval service. -/
def rejectPaymentRequestTool : Mcp McpToolResponse :=
  guardedTool "reject_payment_request" toolPolicy
    (RejectPaymentRequestInput.modelValidate pydantic inputData)
    (some (limits, fun approvalId => "reject_payment_request:" ++ approvalId))
    fun approvalId => delegate (.rejectRequest approvalId) approvalResponseToMcpResponse

def reconciliationToolResponse (summary : ReconciliationSummary) : McpToolResponse where
  status := summary.status
  allowed := true
  reason := "Reconciliation completed successfully."
  data := .reconciliation summary

/-- Validate MCP input and delegate reconciliation to the service. -/
def runReconciliationTool : Mcp McpToolResponse :=
  guardedTool "run_reconciliation" toolPolicy (RunReconciliationInput.modelValidate inputData) none
    fun _ => delegate .runReconciliation reconciliationToolResponse

end Tools

end MpesaMcp
