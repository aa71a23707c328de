import MpesaMcp.App.Messages

/-!
# Receipts

A receipt is generated from a stored transaction, and only from a completed one that carries its
M-Pesa receipt number. Nothing is written but an audit event.
-/

set_option autoImplicit false

namespace MpesaMcp

open Library Python

/-- Generated receipt for a completed transaction. -/
structure Receipt where
  receiptId : String
  transactionId : String
  checkoutRequestId : String
  mpesaReceiptNumber : String
  amount : Int
  phoneNumber : String
  status : TransactionStatus
  issuedAt : Datetime
deriving DecidableEq

inductive ReceiptStatus
  | blocked
  | notFound
  | generated
deriving DecidableEq, Repr

def ReceiptStatus.value : ReceiptStatus → String
  | .blocked => "blocked"
  | .notFound => "not_found"
  | .generated => "generated"

/-- Structured receipt response, of the generator and of the service. -/
structure ReceiptServiceResponse where
  status : ReceiptStatus
  allowed : Bool
  reason : String
  receipt : Option Receipt := none
deriving DecidableEq

/-- `ReceiptGenerator.generate`. -/
def ReceiptGenerator.generate (transaction : PendingTransaction) : App ReceiptServiceResponse :=
  if transaction.status ≠ .completed then
    pure {
      status := .blocked
      allowed := false
      reason := "Only completed transactions can generate receipts." }
  else
    match transaction.mpesaReceiptNumber with
    | none =>
      pure {
        status := .blocked
        allowed := false
        reason := "Completed transaction is missing an M-Pesa receipt number." }
    | some mpesaReceiptNumber => do
      let receiptId ← ask .uuid4
      let issuedAt ← ask .now
      pure {
        status := .generated
        allowed := true
        reason := "Receipt generated successfully."
        receipt := some {
          receiptId := receiptId
          transactionId := transaction.transactionId
          checkoutRequestId := transaction.checkoutRequestId
          mpesaReceiptNumber := mpesaReceiptNumber
          amount := transaction.amount
          phoneNumber := transaction.phoneNumber
          status := transaction.status
          issuedAt := issuedAt } }

namespace ReceiptService

/-- Generate a receipt for a completed transaction. -/
def generateReceipt (checkoutRequestId : String) : App ReceiptServiceResponse :=
  if checkoutRequestId = "" then
    pure { status := .blocked, allowed := false, reason := "Checkout request ID is required." }
  else do
    match ← ask (.transactions (.findByCheckoutRequestId checkoutRequestId)) with
    | none =>
      pure { status := .notFound, allowed := false, reason := "Transaction was not found." }
    | some transaction =>
      let result ← ReceiptGenerator.generate transaction
      match result.receipt with
      | none => pure { status := result.status, allowed := result.allowed, reason := result.reason }
      | some receipt =>
        ask (.logEvent {
          eventType := "receipt_generated"
          payload := [
            ("receipt_id", .str receipt.receiptId),
            ("transaction_id", .str transaction.transactionId),
            ("checkout_request_id", .str transaction.checkoutRequestId)] })
        ask (.increment .receiptGenerated)
        pure result

/-- Generate a receipt from a checkout or provider transaction reference. -/
def generateReceiptByReference (reference : String) : App ReceiptServiceResponse :=
  if reference = "" then
    pure { status := .blocked, allowed := false, reason := "Transaction reference is required." }
  else do
    match ← ask (.transactions (.findByCheckoutRequestId reference)) with
    | some transaction => generateReceipt transaction.checkoutRequestId
    | none =>
      let candidates ← ask (.transactions .listTransactions)
      match candidates.find? fun candidate =>
          decide (candidate.providerTransactionId = some reference
            ∨ candidate.providerReference = some reference) with
      | none =>
        pure { status := .notFound, allowed := false, reason := "Transaction was not found." }
      | some transaction => generateReceipt transaction.checkoutRequestId

end ReceiptService

end MpesaMcp
