import MpesaMcp.Python.Value

/-!
# MCP schemas

The input schemas validate a dictionary field by field, and report one error for each field that is
missing or does not take its value, in the order of the fields. Which values a field takes is up to
pydantic: it converts some values to the type of the field.
-/

set_option autoImplicit false

namespace MpesaMcp

open Python

/-- How pydantic validates the value of a field: what it makes of the value, or the text of its
error. -/
structure Pydantic where
  /-- A field of type `str`. -/
  str : PyValue → Except String String
  /-- A field of type `int`. -/
  int : PyValue → Except String Int

/-- Strict mode: no conversions. -/
def Pydantic.strict : Pydantic where
  str
    | .str s => .ok s
    | _ => .error "Input should be a valid string"
  int
    | .int i => .ok i
    | _ => .error "Input should be a valid integer"

/-- A field without a default. -/
def requiredField {α : Type} (validate : PyValue → Except String α) (data : PyDict)
    (name : String) : Except String α :=
  if hasKey data name then validate (lookup data name) else .error "Field required"

/-- A field of an optional type, with default `None`. -/
def optionalField {α : Type} (validate : PyValue → Except String α) (data : PyDict)
    (name : String) : Except String (Option α) :=
  match lookup data name with
  | .none => .ok none
  | value => (validate value).map some

/-- The errors of one field. -/
def fieldErrors {α : Type} : Except String α → List String
  | .ok _ => []
  | .error message => [message]

variable (pydantic : Pydantic)

/-- Input schema for the `initiate_stk_push` MCP tool. -/
structure InitiateStkPushInput where
  phoneNumber : String
  amount : Int
  accountReference : String
  description : String
  idempotencyKey : Option String

def InitiateStkPushInput.modelValidate (data : PyDict) : Except (List String) InitiateStkPushInput :=
  let phoneNumber := requiredField pydantic.str data "phone_number"
  let amount := requiredField pydantic.int data "amount"
  let accountReference := requiredField pydantic.str data "account_reference"
  let description := requiredField pydantic.str data "description"
  let idempotencyKey := optionalField pydantic.str data "idempotency_key"
  match phoneNumber, amount, accountReference, description, idempotencyKey with
  | .ok phoneNumber, .ok amount, .ok accountReference, .ok description, .ok idempotencyKey =>
    .ok ⟨phoneNumber, amount, accountReference, description, idempotencyKey⟩
  | _, _, _, _, _ =>
    .error (fieldErrors phoneNumber ++ fieldErrors amount ++ fieldErrors accountReference ++
      fieldErrors description ++ fieldErrors idempotencyKey)

/-- Input schema for the provider-agnostic `initiate_payment` MCP tool: the same fields. -/
abbrev InitiatePaymentInput := InitiateStkPushInput

/-- A schema of one text field. -/
def validateText (name : String) (data : PyDict) : Except (List String) String :=
  (requiredField pydantic.str data name).mapError fun message => [message]

def CheckTransactionStatusInput.modelValidate (data : PyDict) : Except (List String) String :=
  validateText pydantic "checkout_request_id" data

def CheckPaymentStatusInput.modelValidate (data : PyDict) : Except (List String) String :=
  validateText pydantic "provider_transaction_id" data

def GenerateReceiptInput.modelValidate (data : PyDict) : Except (List String) String :=
  validateText pydantic "checkout_request_id" data

def ApprovePaymentRequestInput.modelValidate (data : PyDict) : Except (List String) String :=
  validateText pydantic "approval_id" data

def RejectPaymentRequestInput.modelValidate (data : PyDict) : Except (List String) String :=
  validateText pydantic "approval_id" data

/-- A schema without fields; other keys are ignored. -/
def GetTodaySummaryInput.modelValidate (_ : PyDict) : Except (List String) Unit := .ok ()

def GetFailedTransactionsInput.modelValidate (_ : PyDict) : Except (List String) Unit := .ok ()

/-- A schema without fields that forbids other keys. -/
def RunReconciliationInput.modelValidate : PyDict → Except (List String) Unit
  | [] => .ok ()
  | data => .error (data.map fun _ => "Extra inputs are not permitted")

end MpesaMcp
