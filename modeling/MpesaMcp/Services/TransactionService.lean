import MpesaMcp.App.Messages
import MpesaMcp.Safety.Policy

/-!
# Transaction service layer

`check_transaction_status` asks the provider and reports its answer beside the stored transaction,
which it does not change. An exception of the provider escapes.
-/

set_option autoImplicit false

namespace MpesaMcp

open Library Python

/-- The `status` texts of a transaction status response: of the policy, or whatever the provider
answered. -/
inductive StatusCheckOutcome
  | policy (status : PolicyStatus)
  | provider (status : String)
deriving DecidableEq

def StatusCheckOutcome.value : StatusCheckOutcome → String
  | .policy status => status.value
  | .provider status => status

/-- Structured transaction status service response. -/
structure TransactionStatusServiceResponse where
  status : StatusCheckOutcome
  allowed : Bool
  reason : String
  checkoutRequestId : Option String := none
  provider : Option String := none
  rail : Option String := none
  providerTransactionId : Option String := none
  providerReference : Option String := none
  resultCode : Option String := none
  resultDescription : Option String := none
  localTransaction : Option PendingTransaction := none
  errors : List String := []

/-- Coordinate transaction status checks. -/
structure TransactionService where
  policy : PaymentPolicy

namespace TransactionService

/-- `_audit_logger.log_event` of a status check. -/
def logStatusChecked (checkoutRequestId : String) (status : String)
    (localTransaction : Option PendingTransaction) : App Unit :=
  ask (.logEvent {
    eventType := "transaction_status_checked"
    payload := [
      ("checkout_request_id", .str checkoutRequestId),
      ("status", .str status),
      ("local_transaction_id",
        match localTransaction with
        | some transaction => .str transaction.transactionId
        | none => .none)] })

/-- The response where the provider answered. -/
def checked (response : PaymentStatusResponse) (localTransaction : Option PendingTransaction) :
    TransactionStatusServiceResponse where
  status := .provider response.status
  allowed := true
  reason := response.resultDescription
  checkoutRequestId := some response.checkoutRequestId
  provider := some response.provider
  rail := some response.rail
  providerTransactionId := response.providerTransactionId
  providerReference := response.providerReference
  resultCode := some response.resultCode
  resultDescription := some response.resultDescription
  localTransaction := localTransaction

/-- Check transaction status by checkout request ID. -/
def checkTransactionStatus (self : TransactionService) (checkoutRequestId : String) :
    App TransactionStatusServiceResponse := do
  ask (.increment .toolCall)
  if checkoutRequestId = "" then
    pure {
      status := .policy .blocked
      allowed := false
      reason := "Checkout request ID is required." }
  else
    let policyDecision := self.policy.evaluate { action := "check_transaction_status" }
    if !policyDecision.allowed then
      pure {
        status := .policy policyDecision.status
        allowed := false
        reason := policyDecision.reason }
    else do
      let localTransaction ← ask (.transactions (.findByCheckoutRequestId checkoutRequestId))
      let providerResponse ← ask (.provider (.checkTransactionStatus checkoutRequestId))
      logStatusChecked checkoutRequestId providerResponse.status localTransaction
      pure (checked providerResponse localTransaction)

end TransactionService

end MpesaMcp
