import MpesaMcp.Approvals.Service
import MpesaMcp.Safety.Policy

/-!
# Payment service layer

`initiate_stk_push` asks the policy, and then either pays at once or files an approval request;
`execute_approved_payment` reviews a request and pays when the review completes it. Both pay through
`_execute_stk_push`: look up the idempotency key, call the provider, store what it answered.
-/

set_option autoImplicit false

namespace MpesaMcp

open Library Python

/-- The `status` texts of a payment response: a decision of the policy or a transaction status. -/
inductive PaymentStatus
  | policy (status : PolicyStatus)
  | transaction (status : TransactionStatus)
deriving DecidableEq, Repr

def PaymentStatus.value : PaymentStatus → String
  | .policy .allowed => "allowed"
  | .policy .blocked => "blocked"
  | .policy .approvalRequired => "approval_required"
  | .transaction status => status.value

/-- Structured payment service response. -/
structure PaymentResponse where
  status : PaymentStatus
  allowed : Bool
  reason : String
  requiresApproval : Bool := false
  approvalId : Option String := none
  transactionId : Option String := none
  checkoutRequestId : Option String := none
  merchantRequestId : Option String := none
  idempotencyKey : Option String := none
  responseCode : Option String := none
  responseDescription : Option String := none
deriving DecidableEq

/-- Result of approving and executing a payment request. -/
structure ApprovalExecutionResponse where
  status : ApprovalOutcome
  allowed : Bool
  reason : String
  approval : Option ApprovalRequest := none
  payment : Option PaymentResponse := none

/-- The arguments of `initiate_stk_push`. -/
structure InitiateStkPush where
  phoneNumber : Option String
  amount : Option Int
  accountReference : String
  description : String
  idempotencyKey : Option String := none
deriving DecidableEq

/-- Coordinate payment safety checks, provider calls, persistence, and audit logging. -/
structure PaymentService where
  policy : PaymentPolicy
  approvalService : ApprovalService

namespace PaymentService

/-- `_derive_idempotency_key`. -/
def deriveIdempotencyKey (py : Runtime) (phoneNumber : String) (amount : Int)
    (accountReference description : String) : String :=
  py.sha256Hexdigest
    (phoneNumber ++ "|" ++ toString amount ++ "|" ++ accountReference ++ "|" ++ description)

/-- `idempotency_key or self._derive_idempotency_key(...)`: an empty key is derived anew. -/
def resolveIdempotencyKey (py : Runtime) (idempotencyKey : Option String) (phoneNumber : String)
    (amount : Int) (accountReference description : String) : String :=
  match idempotencyKey with
  | some key =>
    if key = "" then deriveIdempotencyKey py phoneNumber amount accountReference description
    else key
  | none => deriveIdempotencyKey py phoneNumber amount accountReference description

/-- `_response_from_existing_transaction`. -/
def responseFromExistingTransaction (transaction : PendingTransaction) : PaymentResponse where
  status := .transaction transaction.status
  allowed := true
  reason := "Existing transaction returned for idempotency key."
  transactionId := some transaction.transactionId
  checkoutRequestId := some transaction.checkoutRequestId
  merchantRequestId := some transaction.merchantRequestId
  idempotencyKey := transaction.idempotencyKey

/-- A text, or `None`. -/
def optionalText : Option String → PyValue
  | some text => .str text
  | none => .none

/-- `_log_success`. -/
def logSuccess (transaction : PendingTransaction) (response : PaymentInitiationResponse) :
    App Unit :=
  ask (.logEvent {
    eventType := "stk_push_initiated"
    payload := [
      ("transaction_id", .str transaction.transactionId),
      ("amount", .int transaction.amount),
      ("phone_number", .str transaction.phoneNumber),
      ("idempotency_key", optionalText transaction.idempotencyKey),
      ("checkout_request_id", .str response.checkoutRequestId),
      ("merchant_request_id", .str response.merchantRequestId)] })

/-- What `_execute_stk_push` saves of a provider response. -/
def saveArguments (request : InitiatePayment) (idempotencyKey : String)
    (response : PaymentInitiationResponse) : SavePendingTransaction where
  phoneNumber := request.phoneNumber
  amount := request.amount
  accountReference := request.accountReference
  description := request.description
  checkoutRequestId := response.checkoutRequestId
  merchantRequestId := response.merchantRequestId
  idempotencyKey := some idempotencyKey
  provider := response.provider
  rail := response.rail
  providerTransactionId := response.providerTransactionId
  providerReference := response.providerReference

/-- The response where the provider raised. -/
def providerFailure (e : Exn) : PaymentResponse where
  status := .transaction .failed
  allowed := false
  reason := "Payment provider initiation failed: " ++ e.message

/-- The response where the provider answered and the answer is stored. -/
def initiated (transaction : PendingTransaction) (idempotencyKey : String)
    (response : PaymentInitiationResponse) : PaymentResponse where
  status := .transaction .pending
  allowed := true
  reason := "STK push initiated successfully."
  transactionId := some transaction.transactionId
  checkoutRequestId := some response.checkoutRequestId
  merchantRequestId := some response.merchantRequestId
  idempotencyKey := some idempotencyKey
  responseCode := some response.responseCode
  responseDescription := some response.responseDescription

/-- What follows a provider response: the save, whose exception escapes, and the bookkeeping. -/
def recordInitiation (request : InitiatePayment) (idempotencyKey : String)
    (response : PaymentInitiationResponse) : App PaymentResponse := do
  let transaction ←
    ask (.transactions (.savePendingTransaction (saveArguments request idempotencyKey response)))
  logSuccess transaction response
  ask (.increment .successfulPayment)
  pure (initiated transaction idempotencyKey response)

/-- `_execute_stk_push`. -/
def executeStkPush (request : InitiatePayment) (idempotencyKey : String) : App PaymentResponse := do
  match ← ask (.transactions (.findByIdempotencyKey idempotencyKey)) with
  | some existingTransaction => pure (responseFromExistingTransaction existingTransaction)
  | none =>
    match ← (ask (.provider (.initiatePayment request))).attempt with
    | .error e =>
      ask (.increment .failedPayment)
      pure (providerFailure e)
    | .ok response => recordInitiation request idempotencyKey response

/-- The payload of the approval request for a payment. -/
def approvalPayload (request : InitiatePayment) (idempotencyKey : String) : PyDict := [
  ("phone_number", .str request.phoneNumber),
  ("amount", .int request.amount),
  ("account_reference", .str request.accountReference),
  ("description", .str request.description),
  ("idempotency_key", .str idempotencyKey)]

/-- The payment and the key an approval payload names, where it names one. -/
def executablePayload (payload : PyDict) : Option (InitiatePayment × String) := do
  let phoneNumber ← (lookup payload "phone_number").asStr?
  let amount ← (lookup payload "amount").asInt?
  let accountReference ← (lookup payload "account_reference").asStr?
  let description ← (lookup payload "description").asStr?
  let idempotencyKey ← (lookup payload "idempotency_key").asStr?
  some (⟨phoneNumber, amount, accountReference, description⟩, idempotencyKey)

/-- `_execute_approved_stk_push`. -/
def executeApprovedStkPush (payload : PyDict) : App PaymentResponse :=
  match executablePayload payload with
  | none =>
    pure {
      status := .policy .blocked
      allowed := false
      reason := "Approval payload is not executable." }
  | some (request, idempotencyKey) => executeStkPush request idempotencyKey

/-- The response where phone number or amount is missing. -/
def incomplete : PaymentResponse where
  status := .policy .blocked
  allowed := false
  reason := "STK push requires phone number and amount."

/-- The payment an `initiate_stk_push` call names, where it names a phone number and an amount. -/
def requestedPayment (args : InitiateStkPush) : Option InitiatePayment := do
  let phoneNumber ← args.phoneNumber
  let amount ← args.amount
  some ⟨phoneNumber, amount, args.accountReference, args.description⟩

/-- The key of a call that names a payment. -/
def keyFor (py : Runtime) (args : InitiateStkPush) (request : InitiatePayment) : String :=
  resolveIdempotencyKey py args.idempotencyKey request.phoneNumber request.amount
    request.accountReference request.description

/-- The branch of `initiate_stk_push` that files an approval request. -/
def requireApproval (self : PaymentService) (decision : PolicyDecision) (request : InitiatePayment)
    (idempotencyKey : String) : App PaymentResponse := do
  let approval ← self.approvalService.createApprovalRequest "initiate_stk_push"
    (approvalPayload request idempotencyKey) decision.reason
  ask (.increment .approvalRequired)
  pure {
    status := .policy decision.status
    allowed := decision.allowed
    reason := decision.reason
    requiresApproval := true
    approvalId := some approval.approvalId
    idempotencyKey := some idempotencyKey }

/-- Initiate an STK push using injected dependencies. -/
def initiateStkPush (py : Runtime) (self : PaymentService) (args : InitiateStkPush) :
    App PaymentResponse :=
  let decision := self.policy.evaluate {
    action := "initiate_stk_push"
    amount := args.amount
    phoneNumber := args.phoneNumber }
  if decision.requiresApproval then
    match requestedPayment args with
    | none => pure incomplete
    | some request => requireApproval self decision request (keyFor py args request)
  else if !decision.allowed then
    pure { status := .policy decision.status, allowed := false, reason := decision.reason }
  else
    match requestedPayment args with
    | none => pure incomplete
    | some request => executeStkPush request (keyFor py args request)

/-- The response where the review did not complete the request. -/
def deferred (response : ApprovalServiceResponse) (approval : ApprovalRequest) :
    ApprovalExecutionResponse where
  status := response.status
  allowed := false
  reason := response.reason
  approval := some approval

/-- The response where the review completed the request. -/
def executed (response : ApprovalServiceResponse) (approval : ApprovalRequest)
    (payment : PaymentResponse) : ApprovalExecutionResponse where
  status := response.status
  allowed := payment.allowed
  reason := "Approval request approved and payment execution attempted."
  approval := some approval
  payment := some payment

/-- The part of `execute_approved_payment` after its own checks. -/
def reviewAndExecute (approvalId operatorId : String) : App ApprovalExecutionResponse := do
  let approvalResponse ← ApprovalService.approveRequest approvalId operatorId
  match approvalResponse.approval with
  | none =>
    pure { status := .notFound, allowed := false, reason := "Approval request was not found." }
  | some approvedApproval =>
    if approvalResponse.status ≠ .approved then pure (deferred approvalResponse approvedApproval)
    else do
      let paymentResponse ← executeApprovedStkPush approvedApproval.payload
      pure (executed approvalResponse approvedApproval paymentResponse)

/-- Approve and execute a pending STK push approval request. -/
def executeApprovedPayment (approvalId operatorId : String) : App ApprovalExecutionResponse := do
  match ← ApprovalService.getApprovalRequest approvalId with
  | none =>
    pure { status := .notFound, allowed := false, reason := "Approval request was not found." }
  | some approval =>
    if ← ApprovalService.isExpired approval then
      let _ ← ApprovalService.expireStaleApprovals
      let expiredApproval ← ApprovalService.getApprovalRequest approvalId
      pure {
        status := .expired
        allowed := false
        reason := "Approval request has expired."
        approval := some (expiredApproval.getD approval) }
    else if approval.status ≠ .pending then
      pure {
        status := .blocked
        allowed := false
        reason := "Approval request is not pending."
        approval := some approval }
    else reviewAndExecute approvalId operatorId

end PaymentService

end MpesaMcp
