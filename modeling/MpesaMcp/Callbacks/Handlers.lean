import MpesaMcp.App.Messages

/-!
# STK callback processing

The handler reads a JSON payload of unknown shape. `_get_string` and `_get_int` coerce what they find
with `str` and `int`; `_get_int` takes a value that is no number for a missing one, except that an
infinite float escapes it as an `OverflowError`.

A callback changes a transaction only at the end, after every check passed; each rejection leaves an
audit event and answers with a status of its own.
-/

set_option autoImplicit false

namespace MpesaMcp

open Library Python

/-- The `status` texts of a processing result. -/
inductive CallbackStatus
  | invalidCallback
  | unknownTransaction
  | amountMismatch
  | phoneMismatch
  | invalidTransition
  | completed
  | failed
deriving DecidableEq, Repr

def CallbackStatus.value : CallbackStatus → String
  | .invalidCallback => "invalid_callback"
  | .unknownTransaction => "unknown_transaction"
  | .amountMismatch => "amount_mismatch"
  | .phoneMismatch => "phone_mismatch"
  | .invalidTransition => "invalid_transition"
  | .completed => "completed"
  | .failed => "failed"

/-- Structured result returned after processing an STK callback. -/
structure CallbackProcessingResult where
  status : CallbackStatus
  success : Bool
  reason : String
  checkoutRequestId : Option String := none
  resultCode : Option Int := none
  resultDescription : Option String := none
  mpesaReceiptNumber : Option String := none
  phoneNumber : Option String := none
  amount : Option Int := none
  transactionId : Option String := none
deriving DecidableEq

/-- `model_dump(exclude_none=True)`. -/
def CallbackProcessingResult.modelDump (result : CallbackProcessingResult) : PyDict :=
  let text (name : String) (value : Option String) : PyDict :=
    value.toList.map fun s => (name, .str s)
  let number (name : String) (value : Option Int) : PyDict :=
    value.toList.map fun i => (name, .int i)
  [("status", .str result.status.value), ("success", .bool result.success),
    ("reason", .str result.reason)]
  ++ text "checkout_request_id" result.checkoutRequestId
  ++ number "result_code" result.resultCode
  ++ text "result_description" result.resultDescription
  ++ text "mpesa_receipt_number" result.mpesaReceiptNumber
  ++ text "phone_number" result.phoneNumber
  ++ number "amount" result.amount
  ++ text "transaction_id" result.transactionId

namespace StkCallbackHandler

/-- `_extract_callback`: `payload["Body"]["stkCallback"]`, where both are dictionaries. -/
def extractCallback (payload : PyDict) : Option PyDict :=
  match lookup payload "Body" with
  | .dict body =>
    match lookup body "stkCallback" with
    | .dict callback => some callback
    | _ => none
  | _ => none

/-- The loop of `_extract_metadata`: items with a text `Name` and a `Value`; the last one wins. -/
def collectItems : PyDict → List PyValue → PyDict
  | parsed, [] => parsed
  | parsed, .dict item :: items =>
    match lookup item "Name" with
    | .str name =>
      if hasKey item "Value" then collectItems (assign parsed name (lookup item "Value")) items
      else collectItems parsed items
    | _ => collectItems parsed items
  | parsed, _ :: items => collectItems parsed items

/-- `_extract_metadata`. -/
def extractMetadata (callback : PyDict) : PyDict :=
  match lookup callback "CallbackMetadata" with
  | .dict metadata =>
    match lookup metadata "Item" with
    | .list items => collectItems [] items
    | _ => []
  | _ => []

/-- `_get_int`. -/
def getInt (source : PyDict) (key : String) : Except Exn (Option Int) :=
  match lookup source key with
  | .none => .ok none
  | value =>
    match value.toInt with
    | .ok i => .ok (some i)
    | .error .typeError => .ok none
    | .error .valueError => .ok none
    | .error .overflowError => .error (.overflowError "cannot convert float infinity to integer")

/-- `_normalize_phone_number`. -/
def normalizePhoneNumber (phoneNumber : String) : String :=
  String.ofList (phoneNumber.toList.filter isDigit)

/-- Raise the exception of a computation that only reads its arguments. -/
def lift {α : Type} : Except Exn α → App α
  | .ok a => pure a
  | .error e => .raise e

section Process

variable (py : Runtime)

/-- `_get_string`. -/
def getString (source : PyDict) (key : String) : Option String :=
  match lookup source key with
  | .none => none
  | value => some (value.toStr py.isPrintable)

/-- `_has_success_metadata`. -/
def hasSuccessMetadata (metadata : PyDict) : Except Exn Bool :=
  match getInt metadata "Amount" with
  | .error e => .error e
  | .ok amount => .ok (amount.isSome && (getString py metadata "MpesaReceiptNumber").isSome
      && (getString py metadata "PhoneNumber").isSome)

/-- `_invalid_payload_result`. -/
def invalidPayloadResult (checkoutRequestId : Option String) : App CallbackProcessingResult := do
  let result : CallbackProcessingResult := {
    status := .invalidCallback
    success := false
    reason := "Malformed callback payload."
    checkoutRequestId := checkoutRequestId }
  ask (.logEvent ⟨"stk_callback_invalid_payload", result.modelDump, some "mpesa_callback"⟩)
  pure result

/-- `_unknown_transaction_result`. -/
def unknownTransactionResult (checkoutRequestId : String) : App CallbackProcessingResult := do
  let result : CallbackProcessingResult := {
    status := .unknownTransaction
    success := false
    reason := "Callback does not match a known transaction."
    checkoutRequestId := some checkoutRequestId }
  ask (.logEvent ⟨"stk_callback_unknown_transaction", result.modelDump, some "mpesa_callback"⟩)
  pure result

/-- `_mismatch_result`: the event and the result it is about. -/
def mismatchResult (eventType : String) (result : CallbackProcessingResult) :
    App CallbackProcessingResult := do
  ask (.logEvent ⟨eventType, result.modelDump, some "mpesa_callback"⟩)
  pure result

/-- `_invalid_transition_result`. -/
def invalidTransitionResult (e : Exn) (checkoutRequestId : String) (resultCode : Int)
    (resultDescription : String) (metadata : PyDict) : App CallbackProcessingResult := do
  let amount ← lift (getInt metadata "Amount")
  let result : CallbackProcessingResult := {
    status := .invalidTransition
    success := false
    reason := e.message
    checkoutRequestId := some checkoutRequestId
    resultCode := some resultCode
    resultDescription := some resultDescription
    mpesaReceiptNumber := getString py metadata "MpesaReceiptNumber"
    phoneNumber := getString py metadata "PhoneNumber"
    amount := amount }
  ask (.logEvent { eventType := "stk_callback_invalid_transition", payload := result.modelDump })
  pure result

/-- The status a result code asks for. -/
def targetStatus (resultCode : Int) : TransactionStatus :=
  if resultCode = 0 then .completed else .failed

/-- The same status in the words of a processing result. -/
def targetOutcome (resultCode : Int) : CallbackStatus :=
  if resultCode = 0 then .completed else .failed

/-- The update at the end of `process` and the result it answers with. -/
def applyCallback (checkoutRequestId : String) (resultCode : Int) (resultDescription : String)
    (metadata : PyDict) : App CallbackProcessingResult := do
  let update := ask (.transactions (.updateTransactionStatus {
    checkoutRequestId := checkoutRequestId
    status := (targetStatus resultCode).value
    resultCode := resultCode
    resultDescription := resultDescription
    mpesaReceiptNumber := getString py metadata "MpesaReceiptNumber" }))
  match ← update.attempt with
  | .error (.transactionStateTransition fromStatus toStatus) =>
    invalidTransitionResult py (.transactionStateTransition fromStatus toStatus) checkoutRequestId
      resultCode resultDescription metadata
  | .error e => .raise e
  | .ok updatedTransaction =>
    let amount ← lift (getInt metadata "Amount")
    let result : CallbackProcessingResult := {
      status := targetOutcome resultCode
      success := decide (resultCode = 0)
      reason := resultDescription
      checkoutRequestId := some checkoutRequestId
      resultCode := some resultCode
      resultDescription := some resultDescription
      mpesaReceiptNumber := getString py metadata "MpesaReceiptNumber"
      phoneNumber := getString py metadata "PhoneNumber"
      amount := amount
      transactionId := updatedTransaction.map PendingTransaction.transactionId }
    ask (.logEvent { eventType := "stk_callback_processed", payload := result.modelDump })
    pure result

/-- The checks of `process` against the stored transaction, and what follows them. -/
def checkTransaction (transaction : PendingTransaction) (checkoutRequestId : String)
    (resultCode : Int) (resultDescription : String) (metadata : PyDict) :
    App CallbackProcessingResult := do
  match validateTransition transaction.status (targetStatus resultCode).value with
  | .error e =>
    invalidTransitionResult py e checkoutRequestId resultCode resultDescription metadata
  | .ok _ =>
    let callbackAmount ← lift (getInt metadata "Amount")
    if callbackAmount.isSome ∧ callbackAmount ≠ some transaction.amount then
      mismatchResult "stk_callback_amount_mismatch" {
        status := .amountMismatch
        success := false
        reason := "Callback amount does not match expected transaction amount."
        checkoutRequestId := some checkoutRequestId
        resultCode := some resultCode
        resultDescription := some resultDescription
        amount := callbackAmount
        transactionId := some transaction.transactionId }
    else
      let callbackPhoneNumber := getString py metadata "PhoneNumber"
      if callbackPhoneNumber.isSome ∧ callbackPhoneNumber.map normalizePhoneNumber ≠
          some (normalizePhoneNumber transaction.phoneNumber) then
        mismatchResult "stk_callback_phone_mismatch" {
          status := .phoneMismatch
          success := false
          reason := "Callback phone number does not match expected transaction phone."
          checkoutRequestId := some checkoutRequestId
          resultCode := some resultCode
          resultDescription := some resultDescription
          phoneNumber := callbackPhoneNumber
          transactionId := some transaction.transactionId }
      else applyCallback py checkoutRequestId resultCode resultDescription metadata

/-- The part of `process` after the three required fields are read. -/
def processFields (callback : PyDict) (checkoutRequestId : String) (resultCode : Int)
    (resultDescription : String) : App CallbackProcessingResult := do
  match ← ask (.transactions (.findByCheckoutRequestId checkoutRequestId)) with
  | none => unknownTransactionResult checkoutRequestId
  | some transaction =>
    let metadata := extractMetadata callback
    let complete ← if resultCode = 0 then lift (hasSuccessMetadata py metadata) else pure true
    if complete then
      checkTransaction py transaction checkoutRequestId resultCode resultDescription metadata
    else invalidPayloadResult (some checkoutRequestId)

/-- Process a raw STK callback payload. -/
def process (payload : PyDict) : App CallbackProcessingResult := do
  ask (.increment .callbackReceived)
  match extractCallback payload with
  | none => invalidPayloadResult none
  | some callback =>
    let resultCode ← lift (getInt callback "ResultCode")
    match getString py callback "CheckoutRequestID", resultCode,
      getString py callback "ResultDesc" with
    | some checkoutRequestId, some resultCode, some resultDescription =>
      processFields py callback checkoutRequestId resultCode resultDescription
    | checkoutRequestId, _, _ => invalidPayloadResult checkoutRequestId

end Process

end StkCallbackHandler

end MpesaMcp
