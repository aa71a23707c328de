import MpesaMcp.Analytics.Service
import MpesaMcp.Auth.Security
import MpesaMcp.Mcp.Schemas
import MpesaMcp.Python.Isoformat
import MpesaMcp.Reconciliation.Service
import MpesaMcp.Services.PaymentService
import MpesaMcp.Services.ReceiptService
import MpesaMcp.Storage.PostgresAudit

/-!
# What a route asks, and what it answers

A route is an `Http` program: it resolves the operator of the request, or calls a method of one of the
services of the container. `operatorRoute` is what every route of an operator begins with. FastAPI
resolves the dependencies of a route before its own parameters, so a request that is refused is never
told that a parameter is invalid.
-/

set_option autoImplicit false

namespace MpesaMcp

open Library Python

/-- One call that leaves a route. -/
inductive HttpMsg
  | getOperatorPrincipal (authorization : Option String)
  | handleStkCallback (request : CallbackRequest)
  | listPendingRequests
  | expireStaleApprovals
  | getApprovalRequest (approvalId : String)
  | executeApprovedPayment (approvalId operatorId : String)
  | rejectRequest (approvalId : String)
  | listRecentTransactions (limit : Int)
  | getTransaction (transactionId : String)
  | listRecentEvents (limit : Int)
  | getTodaySummary
  | generateReceiptByReference (reference : String)
  | runReconciliation
  /-- `metrics_recorder.snapshot()`. -/
  | snapshot

/-- What each call returns. -/
abbrev HttpMsg.Answer : HttpMsg → Type
  | .getOperatorPrincipal _ => Except HttpException OperatorIdentity
  | .handleStkCallback _ => CallbackResponse
  | .listPendingRequests => List ApprovalRequest
  | .expireStaleApprovals => Nat
  | .getApprovalRequest _ => Option ApprovalRequest
  | .executeApprovedPayment _ _ => ApprovalExecutionResponse
  | .rejectRequest _ => ApprovalServiceResponse
  | .listRecentTransactions _ => List PendingTransaction
  | .getTransaction _ => Option PendingTransaction
  | .listRecentEvents _ => List AuditEventRow
  | .getTodaySummary => DailyAnalyticsSummary
  | .generateReceiptByReference _ => ReceiptServiceResponse
  | .runReconciliation => ReconciliationSummary
  | .snapshot => MetricsSnapshot

/-- A route. -/
abbrev Http (α : Type) := Prog Exn HttpMsg.Answer α

/-- Make one call. -/
def Http.call (m : HttpMsg) : Http m.Answer := Prog.send m

@[simp] theorem Http.run_call {σ : Type} (h : Handler Exn HttpMsg.Answer σ) (m : HttpMsg) (s : σ) :
    @Prog.run Exn HttpMsg HttpMsg.Answer (no_index m.Answer) σ h (Http.call m) s = h m s :=
  Prog.run_send h m s

/-! ## Responses -/

/-- Transaction fields shown in operator transaction lists. -/
structure OperatorTransactionSummary where
  transactionId : String
  provider : String
  rail : String
  status : String
  amount : Int
  phoneNumber : String
  createdAt : String
  providerTransactionId : Option String := none
  providerReference : Option String := none
deriving DecidableEq

/-- System configuration fields shown in the operator dashboard. -/
structure OperatorSystemStatus where
  status : String
  ready : Bool
  paymentProvider : String
  storageMode : String
  rateLimitMode : String
  authMode : String
deriving DecidableEq

/-- Audit event fields shown in operator audit lists. -/
structure OperatorAuditEventSummary where
  eventId : String
  eventType : String
  createdAt : String
  actor : Option String := none
  correlationId : Option String := none
deriving DecidableEq

/-- The content of a response, before it is encoded. -/
inductive HttpBody
  /-- `{"detail": detail}`. -/
  | detail (detail : String)
  /-- The validation error of a parameter. -/
  | invalid (parameter message : String)
  /-- `{"status": "not_found", "reason": reason}`, with `"allowed"` where the route gives it. -/
  | notFound (reason : String) (allowed : Option Bool := none)
  /-- `{"status": "infrastructure_unavailable", "success": false, "reason": reason}`. -/
  | unavailable (reason : String)
  | internalServerError
  | callback (response : CallbackResponse)
  | approvals (approvals : List ApprovalRequest)
  | expired (expiredCount : Nat)
  | approval (approval : ApprovalRequest)
  | execution (response : ApprovalExecutionResponse)
  | decision (response : ApprovalServiceResponse)
  | transactions (transactions : List OperatorTransactionSummary)
  | transaction (transaction : PendingTransaction)
  | auditEvents (events : List OperatorAuditEventSummary)
  | summary (summary : DailyAnalyticsSummary)
  | system (status : OperatorSystemStatus)
  | receipt (response : ReceiptServiceResponse)
  | reconciliation (summary : ReconciliationSummary)
  | health (storageMode : String)
  | metrics (snapshot : MetricsSnapshot)

/-- The response of a route. -/
structure RouteResponse where
  statusCode : Nat := 200
  body : HttpBody

/-- The response to an `HTTPException`. -/
def HttpException.response (e : HttpException) : RouteResponse where
  statusCode := e.statusCode
  body := .detail e.detail

/-! ## The routes of operators -/

/-- `require_viewer`, `require_approver` and `require_admin`, by the role they require. -/
def requireOperator (minimumRole : OperatorRole) (authorization : Option String) :
    Http (Except HttpException OperatorIdentity) := do
  match ← Http.call (.getOperatorPrincipal authorization) with
  | .error e => pure (.error e)
  | .ok principal => pure (requireRole principal minimumRole)

/-- A route that an operator of at least this role may take. -/
def operatorRoute (minimumRole : OperatorRole) (authorization : Option String)
    (route : OperatorIdentity → Http RouteResponse) : Http RouteResponse := do
  match ← requireOperator minimumRole authorization with
  | .error e => pure e.response
  | .ok principal => route principal

/-- `Query(ge=1, le=200)`, with default 50. -/
def limitParameter (pydantic : Pydantic) : Option String → Except String Int
  | none => .ok 50
  | some text =>
    match pydantic.int (.str text) with
    | .error message => .error message
    | .ok limit =>
      if limit < 1 then .error "Input should be greater than or equal to 1"
      else if 200 < limit then .error "Input should be less than or equal to 200"
      else .ok limit

/-- A route with the parameter `limit`. -/
def withLimit (pydantic : Pydantic) (limit : Option String) (route : Int → Http RouteResponse) :
    Http RouteResponse :=
  match limitParameter pydantic limit with
  | .error message => pure ⟨422, .invalid "limit" message⟩
  | .ok limit => route limit

/-- A limit that is accepted is one of the numbers up to 200. -/
theorem limitParameter_bounds {pydantic : Pydantic} {text : Option String} {limit : Int}
    (h : limitParameter pydantic text = .ok limit) : 1 ≤ limit ∧ limit ≤ 200 := by
  unfold limitParameter at h
  split at h
  next =>
    cases h
    decide
  next =>
    split at h
    next => cases h
    next =>
      split_ifs at h
      cases h
      omega

end MpesaMcp
