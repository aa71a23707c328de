import MpesaMcp.Analytics.Service
import MpesaMcp.Callbacks.Routes
import MpesaMcp.Daraja.Client
import MpesaMcp.Library.Trace
import MpesaMcp.Reconciliation.Service
import MpesaMcp.Services.PaymentService
import MpesaMcp.Services.ReceiptService
import MpesaMcp.Storage.Postgres

/-!
# The application container and its runs

`AppContainer` wires the services to a transaction repository over stores `τ` and a payment provider
with states `π`. `World` is the state of a running container. `handle` answers the calls of the
services over it, and `step` runs one operation of the application to its end.

`initiations` is no state of the application: it records the calls the provider received.
-/

set_option autoImplicit false

namespace MpesaMcp

open Library Python

/-- The settings the services read. -/
structure Settings extends CallbackSettings where
  maxStkAmount : Int := 10000
  reconciliationStalePendingMinutes : Int := 15
  approvalExpiryMinutes : Int := 30
  approvalRequiredReviewers : Int := 1
  highRiskApprovalRequiredReviewers : Int := 2
  highRiskAmountThreshold : Int := 50000

/-- Application dependency container. -/
structure AppContainer (τ π : Type) where
  settings : Settings := {}
  callbackSourceVerifier : CallbackSourceVerifier := .development
  transactionRepository : TransactionRepository τ
  paymentProvider : PaymentProvider π

namespace AppContainer

variable {τ π : Type} (self : AppContainer τ π)

def approvalService : ApprovalService where
  expiryMinutes := self.settings.approvalExpiryMinutes
  requiredReviewers := self.settings.approvalRequiredReviewers
  highRiskRequiredReviewers := self.settings.highRiskApprovalRequiredReviewers
  highRiskAmountThreshold := self.settings.highRiskAmountThreshold

def paymentService : PaymentService where
  policy := { maxStkAmount := self.settings.maxStkAmount }
  approvalService := self.approvalService

def reconciliationService : ReconciliationService where
  stalePendingMinutes := self.settings.reconciliationStalePendingMinutes

def callbackRoute : CallbackRoute where
  settings := self.settings.toCallbackSettings
  sourceVerifier := self.callbackSourceVerifier

end AppContainer

/-- A container over the in-memory repository. -/
def AppContainer.inMemory {π : Type} (settings : Settings) (verifier : CallbackSourceVerifier)
    (provider : PaymentProvider π) : AppContainer Transactions π where
  settings := settings
  callbackSourceVerifier := verifier
  transactionRepository := InMemoryTransactionRepository
  paymentProvider := provider

/-- A container over the Postgres repository. -/
def AppContainer.postgres {π : Type} (settings : Settings) (verifier : CallbackSourceVerifier)
    (provider : PaymentProvider π) : AppContainer TransactionTable π where
  settings := settings
  callbackSourceVerifier := verifier
  transactionRepository := PostgresTransactionRepository
  paymentProvider := provider

/-- The container of local development: the in-memory repository and the mock client. -/
def AppContainer.mock (settings : Settings) : AppContainer Transactions Unit where
  settings := settings
  transactionRepository := InMemoryTransactionRepository
  paymentProvider := MockDarajaPaymentProvider

/-- A call of `initiate_payment` that the provider received, and what came of it. -/
structure Initiation where
  request : InitiatePayment
  takesEffect : Bool
  result : Except Exn PaymentInitiationResponse

/-- The state of a running container. -/
structure World (τ π : Type) where
  ambient : Ambient := {}
  transactions : τ
  provider : π
  approvals : Approvals := Keyed.empty
  seen : ReplayStore := Keyed.empty
  auditEvents : List AuditEvent := []
  metrics : MetricsSnapshot := {}
  initiations : List Initiation := []

variable {τ π : Type} (env : Env) (container : AppContainer τ π)

/-- A container that starts over given stores of transactions and provider state: no approvals. -/
def start (transactions : τ) (provider : π) : World τ π where
  transactions := transactions
  provider := provider

/-- The answer of the provider, with the call recorded. -/
def handleProvider (m : PaymentProviderProtocol) (w : World τ π) :
    Except Exn m.Answer × World τ π :=
  let s := (w.ambient, w.provider)
  let r := container.paymentProvider.answer env m s
  let w' := { w with ambient := r.2.1, provider := r.2.2 }
  match m, r.1 with
  | .initiatePayment args, result =>
    (result, { w' with
      initiations := w.initiations ++
        [⟨args, container.paymentProvider.takesEffect env args s, result⟩] })
  | .checkTransactionStatus _, result => (result, w')

/-- How the container answers a call of a service. -/
def handle : Handler Exn Msg.Answer (World τ π)
  | .now, w => (.ok (w.ambient.now env).1, { w with ambient := (w.ambient.now env).2 })
  | .uuid4, w => (.ok (w.ambient.uuid4 env).1, { w with ambient := (w.ambient.uuid4 env).2 })
  | .transactions m, w =>
    let r := container.transactionRepository.answer env m (w.ambient, w.transactions)
    (r.1, { w with ambient := r.2.1, transactions := r.2.2 })
  | .approvals m, w =>
    let r := InMemoryApprovalRepository.answer env m (w.ambient, w.approvals)
    (r.1, { w with ambient := r.2.1, approvals := r.2.2 })
  | .provider m, w => handleProvider env container m w
  | .checkAndStore key windowSeconds, w =>
    let r := InMemoryReplayProtection.checkAndStore env key windowSeconds w.ambient w.seen
    (.ok r.1, { w with ambient := r.2.1, seen := r.2.2 })
  | .logEvent event, w => (.ok (), { w with auditEvents := w.auditEvents ++ [event] })
  | .increment counter, w => (.ok (), { w with metrics := w.metrics.increment counter })

/-- The operations of the application. -/
inductive Op
  | initiateStkPush (args : InitiateStkPush)
  | executeApprovedPayment (approvalId operatorId : String)
  | approveRequest (approvalId operatorId : String)
  | rejectRequest (approvalId : String)
  | expireStaleApprovals
  | listPendingRequests
  | savePendingTransaction (args : SavePendingTransaction)
  | updateTransactionStatus (args : UpdateTransactionStatus)
  /-- `StkCallbackHandler.process`. -/
  | process (payload : PyDict)
  /-- `POST /callbacks/mpesa/stk`. -/
  | postCallback (request : CallbackRequest)
  | generateReceipt (checkoutRequestId : String)
  | generateReceiptByReference (reference : String)
  | getTodaySummary
  | getFailedTransactions
  | runReconciliation

/-- What the operations return. -/
inductive Reply
  | payment (response : PaymentResponse)
  | execution (response : ApprovalExecutionResponse)
  | approval (response : ApprovalServiceResponse)
  | expired (count : Nat)
  | approvals (approvals : List ApprovalRequest)
  | transaction (transaction : PendingTransaction)
  | updated (transaction : Option PendingTransaction)
  | processed (result : CallbackProcessingResult)
  | callback (response : CallbackResponse)
  | receipt (response : ReceiptServiceResponse)
  | summary (summary : DailyAnalyticsSummary)
  | transactions (transactions : List PendingTransaction)
  | reconciliation (summary : ReconciliationSummary)

/-- The program of an operation. -/
def program (py : Runtime) : Op → App Reply
  | .initiateStkPush args => .payment <$> container.paymentService.initiateStkPush py args
  | .executeApprovedPayment approvalId operatorId =>
    .execution <$> PaymentService.executeApprovedPayment approvalId operatorId
  | .approveRequest approvalId operatorId =>
    .approval <$> ApprovalService.approveRequest approvalId operatorId
  | .rejectRequest approvalId => .approval <$> ApprovalService.rejectRequest approvalId
  | .expireStaleApprovals => .expired <$> ApprovalService.expireStaleApprovals
  | .listPendingRequests => .approvals <$> ApprovalService.listPendingRequests
  | .savePendingTransaction args =>
    .transaction <$> ask (.transactions (.savePendingTransaction args))
  | .updateTransactionStatus args =>
    .updated <$> ask (.transactions (.updateTransactionStatus args))
  | .process payload => .processed <$> StkCallbackHandler.process py payload
  | .postCallback request => .callback <$> container.callbackRoute.post py request
  | .generateReceipt checkoutRequestId => .receipt <$> ReceiptService.generateReceipt checkoutRequestId
  | .generateReceiptByReference reference =>
    .receipt <$> ReceiptService.generateReceiptByReference reference
  | .getTodaySummary => .summary <$> AnalyticsService.getTodaySummary
  | .getFailedTransactions => .transactions <$> AnalyticsService.getFailedTransactions
  | .runReconciliation => .reconciliation <$> container.reconciliationService.runReconciliation

/-- Run one operation to its end. -/
def step (op : Op) (w : World τ π) : Except Exn Reply × World τ π :=
  Prog.run (handle env container) (program container env.toRuntime op) w

/-- One step of a run. -/
abbrev AppStep (τ π : Type) := Step (World τ π) Op (Except Exn Reply)

end MpesaMcp
