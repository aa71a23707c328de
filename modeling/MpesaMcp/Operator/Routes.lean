import MpesaMcp.App.Http

/-!
# Operator dashboard API routes

The routes read, except for the reconciliation, which an administrator runs, and the audit event that a
receipt leaves.
-/

set_option autoImplicit false

namespace MpesaMcp

open Library Python

/-- The fields of a transaction that a list shows. -/
def PendingTransaction.operatorSummary (transaction : PendingTransaction) :
    OperatorTransactionSummary where
  transactionId := transaction.transactionId
  provider := transaction.provider
  rail := transaction.rail
  status := transaction.status.value
  amount := transaction.amount
  phoneNumber := transaction.phoneNumber
  createdAt := Datetime.isoformat transaction.createdAt
  providerTransactionId := transaction.providerTransactionId
  providerReference := transaction.providerReference

/-- The fields of an audit event that a list shows. -/
def AuditEventRow.operatorSummary (event : AuditEventRow) : OperatorAuditEventSummary where
  eventId := event.eventId
  eventType := event.eventType
  createdAt := Datetime.isoformat event.createdAt
  actor := event.actor
  correlationId := event.correlationId

namespace OperatorRoutes

variable (pydantic : Pydantic) (authorization : Option String)

/-- `GET /operator/transactions`. -/
def listTransactions (limit : Option String) : Http RouteResponse :=
  operatorRoute .viewer authorization fun _ =>
    withLimit pydantic limit fun limit => do
      let transactions ← Http.call (.listRecentTransactions limit)
      pure { body := .transactions (transactions.map PendingTransaction.operatorSummary) }

/-- `GET /operator/transactions/{transaction_id}`. -/
def getTransaction (transactionId : String) : Http RouteResponse :=
  operatorRoute .viewer authorization fun _ => do
    match ← Http.call (.getTransaction transactionId) with
    | none => pure ⟨404, .notFound "Transaction was not found."⟩
    | some transaction => pure { body := .transaction transaction }

/-- `GET /operator/audit-events`. -/
def listAuditEvents (limit : Option String) : Http RouteResponse :=
  operatorRoute .viewer authorization fun _ =>
    withLimit pydantic limit fun limit => do
      let events ← Http.call (.listRecentEvents limit)
      pure { body := .auditEvents (events.map AuditEventRow.operatorSummary) }

/-- `GET /operator/analytics/today`. -/
def getTodayAnalytics : Http RouteResponse :=
  operatorRoute .viewer authorization fun _ => do
    let summary ← Http.call .getTodaySummary
    pure { body := .summary summary }

/-- `GET /operator/system/status`; a container is built with all of its parts. -/
def getSystemStatus (settings : RuntimeSettings) : Http RouteResponse :=
  operatorRoute .viewer authorization fun _ =>
    pure { body := .system {
      status := "ready"
      ready := true
      paymentProvider := settings.paymentProvider
      storageMode := settings.storageMode
      rateLimitMode := settings.rateLimitMode
      authMode := if settings.operatorAuthEnabled then "enabled" else "disabled" } }

/-- `GET /operator/receipts/{reference}`. -/
def getReceipt (reference : String) : Http RouteResponse :=
  operatorRoute .viewer authorization fun _ => do
    let response ← Http.call (.generateReceiptByReference reference)
    pure {
      statusCode := if response.status = .notFound then 404 else 200
      body := .receipt response }

/-- `POST /operator/reconciliation/run`. -/
def runReconciliation : Http RouteResponse :=
  operatorRoute .admin authorization fun _ => do
    let summary ← Http.call .runReconciliation
    pure { body := .reconciliation summary }

end OperatorRoutes

end MpesaMcp
