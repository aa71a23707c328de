/-!
# Payment safety policy

The policy decides on an action alone, without state: read-only actions pass, an STK push passes up
to the configured amount and needs an approval above it, everything else is blocked.
-/

set_option autoImplicit false

namespace MpesaMcp

/-- `READ_ONLY_ACTIONS`. -/
def readOnlyActions : List String :=
  ["check_transaction_status", "get_today_transactions", "get_failed_transactions",
    "generate_receipt"]

/-- `INITIATE_STK_PUSH`. -/
def initiateStkPushAction : String := "initiate_stk_push"

/-- Payment action request evaluated by the safety policy. -/
structure PaymentActionRequest where
  action : String
  amount : Option Int := none
  phoneNumber : Option String := none

inductive PolicyStatus
  | allowed
  | blocked
  | approvalRequired
deriving DecidableEq, Repr

def PolicyStatus.value : PolicyStatus → String
  | .allowed => "allowed"
  | .blocked => "blocked"
  | .approvalRequired => "approval_required"

/-- Decision returned by the payment safety policy. -/
structure PolicyDecision where
  status : PolicyStatus
  allowed : Bool
  reason : String
  requiresApproval : Bool := false
deriving DecidableEq

/-- Evaluate whether payment actions are allowed. -/
structure PaymentPolicy where
  maxStkAmount : Int

namespace PaymentPolicy

def evaluateStkPush (self : PaymentPolicy) (request : PaymentActionRequest) : PolicyDecision :=
  match request.amount with
  | none =>
    { status := .blocked, allowed := false, reason := "Amount is required for STK push." }
  | some amount =>
    match request.phoneNumber with
    | none =>
      { status := .blocked, allowed := false, reason := "Phone number is required for STK push." }
    | some _ =>
      if amount ≤ 0 then
        { status := .blocked, allowed := false, reason := "Amount must be greater than 0." }
      else if self.maxStkAmount < amount then
        { status := .approvalRequired
          allowed := false
          reason := "Amount exceeds the configured STK push limit."
          requiresApproval := true }
      else
        { status := .allowed
          allowed := true
          reason := "STK push is within the configured limit." }

/-- Evaluate a payment action request. -/
def evaluate (self : PaymentPolicy) (request : PaymentActionRequest) : PolicyDecision :=
  if request.action ∈ readOnlyActions then
    { status := .allowed, allowed := true, reason := "Read-only action is allowed." }
  else if request.action = initiateStkPushAction then self.evaluateStkPush request
  else { status := .blocked, allowed := false, reason := "Unknown action is blocked." }

/-- An STK push is decided by its own rule; its name is not among the read-only actions. -/
theorem evaluate_initiateStkPush (self : PaymentPolicy) (request : PaymentActionRequest)
    (h : request.action = initiateStkPushAction) :
    self.evaluate request = self.evaluateStkPush request := by
  have hne : initiateStkPushAction ∉ readOnlyActions := by decide
  unfold evaluate
  rw [h, if_neg hne, if_pos rfl]

/-- An STK push needs an approval exactly where it names a phone and an amount above the limit, and
that amount is positive. -/
theorem evaluateStkPush_requiresApproval {self : PaymentPolicy} {request : PaymentActionRequest} :
    (self.evaluateStkPush request).requiresApproval = true ↔
      ∃ amount phone, request.amount = some amount ∧ request.phoneNumber = some phone ∧
        0 < amount ∧ self.maxStkAmount < amount := by
  unfold evaluateStkPush
  cases ha : request.amount with
  | none => simp
  | some amount =>
    cases hp : request.phoneNumber with
    | none => simp
    | some phone =>
      by_cases h0 : amount ≤ 0
      · simp [h0, Int.not_lt.mpr h0]
      · by_cases hm : self.maxStkAmount < amount
        · simp [h0, hm, Int.not_le.mp h0]
        · simp [h0, hm]

/-- An STK push is allowed exactly where it names a phone and a positive amount up to the limit. -/
theorem evaluateStkPush_allowed {self : PaymentPolicy} {request : PaymentActionRequest} :
    (self.evaluateStkPush request).allowed = true ↔
      ∃ amount phone, request.amount = some amount ∧ request.phoneNumber = some phone ∧
        0 < amount ∧ amount ≤ self.maxStkAmount := by
  unfold evaluateStkPush
  cases ha : request.amount with
  | none => simp
  | some amount =>
    cases hp : request.phoneNumber with
    | none => simp
    | some phone =>
      by_cases h0 : amount ≤ 0
      · simp [h0, Int.not_lt.mpr h0]
      · by_cases hm : self.maxStkAmount < amount
        · simp [h0, hm]
        · simp [h0, hm, Int.not_le.mp h0, Int.not_lt.mp hm]

end PaymentPolicy

end MpesaMcp
