import MpesaMcp.App.Messages

/-!
# Approval workflow service

An approval is expired where it is still pending at or after its `expires_at`; the record itself
keeps saying pending until some operation comes across it. Every test of that reads the clock anew.
`approve_request` looks at the status it finds, `reject_request` does not.
-/

set_option autoImplicit false

namespace MpesaMcp

open Library Python

/-- The `status` texts of an approval response. -/
inductive ApprovalOutcome
  | expired
  | notFound
  | blocked
  | partiallyApproved
  | approved
  | rejected
deriving DecidableEq, Repr

def ApprovalOutcome.value : ApprovalOutcome → String
  | .expired => "expired"
  | .notFound => "not_found"
  | .blocked => "blocked"
  | .partiallyApproved => "partially_approved"
  | .approved => "approved"
  | .rejected => "rejected"

/-- Structured approval service response. -/
structure ApprovalServiceResponse where
  status : ApprovalOutcome
  allowed : Bool
  reason : String
  approval : Option ApprovalRequest := none

/-- Coordinate approval request lifecycle. -/
structure ApprovalService where
  expiryMinutes : Int := 30
  requiredReviewers : Int := 1
  highRiskRequiredReviewers : Int := 2
  highRiskAmountThreshold : Int := 50000

namespace ApprovalService

/-- `_log_audit_event`. -/
def logAuditEvent (eventType : String) (payload : PyDict) : App Unit :=
  ask (.logEvent { eventType := eventType, payload := payload, actor := some "operator" })

/-- `_required_reviewers_for_payload`. -/
def requiredReviewersForPayload (self : ApprovalService) (payload : PyDict) : Int :=
  match (lookup payload "amount").asInt? with
  | some amount =>
    if self.highRiskAmountThreshold ≤ amount then self.highRiskRequiredReviewers
    else self.requiredReviewers
  | none => self.requiredReviewers

/-- Create an approval request. -/
def createApprovalRequest (self : ApprovalService) (action : String) (payload : PyDict)
    (reason : String) : App ApprovalRequest := do
  let createdAt ← ask .now
  match Datetime.addMinutes createdAt self.expiryMinutes with
  | none => .raise (.overflowError "date value out of range")
  | some expiresAt =>
    let approval ← ask (.approvals (.create {
      action := action
      payload := payload
      reason := reason
      expiresAt := expiresAt
      requiredReviewers := self.requiredReviewersForPayload payload }))
    logAuditEvent "approval_created" [
      ("approval_id", .str approval.approvalId),
      ("action", .str approval.action),
      ("status", .str approval.status.value),
      ("required_reviewers", .int approval.requiredReviewers),
      ("reason", .str approval.reason)]
    pure approval

/-- Whether an approval request is expired; only a pending one asks for the time. -/
def isExpired (approval : ApprovalRequest) : App Bool :=
  if approval.status = .pending then do
    let now ← ask .now
    pure (decide (approval.expiresAt ≤ now))
  else pure false

/-- `_expire_approval`. -/
def expireApproval (approval : ApprovalRequest) : App ApprovalRequest := do
  match ← ask (.approvals (.updateStatus approval.approvalId .expired)) with
  | none => pure approval
  | some expiredApproval =>
    logAuditEvent "approval_expired" [
      ("approval_id", .str approval.approvalId),
      ("action", .str approval.action),
      ("status", .str expiredApproval.status.value)]
    pure expiredApproval

/-- The loop of `expire_stale_approvals`. -/
def expireEach : List ApprovalRequest → App Nat
  | [] => pure 0
  | approval :: rest => do
    if ← isExpired approval then
      let _ ← expireApproval approval
      let expiredCount ← expireEach rest
      pure (expiredCount + 1)
    else expireEach rest

/-- Expire stale pending approval requests and return the count. -/
def expireStaleApprovals : App Nat := do
  expireEach (← ask (.approvals .listPending))

/-- The comprehension of `list_pending_requests`. -/
def dropExpired : List ApprovalRequest → App (List ApprovalRequest)
  | [] => pure []
  | approval :: rest => do
    let expired ← isExpired approval
    let kept ← dropExpired rest
    pure (if expired then kept else approval :: kept)

/-- Return pending approval requests. -/
def listPendingRequests : App (List ApprovalRequest) := do
  let _ ← expireStaleApprovals
  dropExpired (← ask (.approvals .listPending))

/-- Return an approval request by ID. -/
def getApprovalRequest (approvalId : String) : App (Option ApprovalRequest) :=
  ask (.approvals (.get approvalId))

/-- The response where the request expired. -/
def expiredResponse (approval : ApprovalRequest) : App ApprovalServiceResponse := do
  let expiredApproval ← expireApproval approval
  pure {
    status := .expired
    allowed := false
    reason := "Approval request has expired."
    approval := some expiredApproval }

/-- The response where no request has the id. -/
def notFoundResponse : ApprovalServiceResponse where
  status := .notFound
  allowed := false
  reason := "Approval request was not found."

/-- The response where the request cannot take the review. -/
def blockedResponse (approval : ApprovalRequest) (reason : String) : ApprovalServiceResponse where
  status := .blocked
  allowed := false
  reason := reason
  approval := some approval

/-- The review of a pending request that is not expired. -/
def reviewPending (approvalId operatorId : String) (current : ApprovalRequest) :
    App ApprovalServiceResponse := do
  if operatorId ∈ current.reviewerIds then
    return blockedResponse current "Operator has already approved this request."
  let reviewerIds := current.reviewerIds ++ [operatorId]
  let reviewCount : Int := reviewerIds.length
  let reviewedAt ← ask .now
  if reviewCount < current.requiredReviewers then
    let approval ← ask (.approvals (.save { current with
      reviewerIds := reviewerIds
      reviewCount := reviewCount
      reviewedAt := some reviewedAt }))
    logAuditEvent "approval_partially_approved" [
      ("approval_id", .str approvalId),
      ("action", .str approval.action),
      ("review_count", .int reviewCount),
      ("required_reviewers", .int approval.requiredReviewers)]
    return {
      status := .partiallyApproved
      allowed := true
      reason := "Approval review recorded; additional reviewer required."
      approval := some approval }
  let approval ← ask (.approvals (.save { current with
    status := .approved
    reviewerIds := reviewerIds
    reviewCount := reviewCount
    reviewedAt := some reviewedAt }))
  logAuditEvent "approval_approved" [
    ("approval_id", .str approvalId),
    ("action", .str approval.action),
    ("status", .str approval.status.value),
    ("review_count", .int approval.reviewCount),
    ("required_reviewers", .int approval.requiredReviewers)]
  return {
    status := .approved
    allowed := true
    reason := "Approval request approved."
    approval := some approval }

/-- Approve an approval request. -/
def approveRequest (approvalId operatorId : String) : App ApprovalServiceResponse := do
  match ← ask (.approvals (.get approvalId)) with
  | none => pure notFoundResponse
  | some current =>
    if ← isExpired current then expiredResponse current
    else if current.status ≠ .pending then
      pure (blockedResponse current "Approval request is not pending.")
    else reviewPending approvalId operatorId current

/-- The part of `reject_request` after its expiry test. -/
def rejectStored (approvalId : String) : App ApprovalServiceResponse := do
  match ← ask (.approvals (.updateStatus approvalId .rejected)) with
  | none => pure notFoundResponse
  | some approval =>
    logAuditEvent "approval_rejected" [
      ("approval_id", .str approvalId),
      ("action", .str approval.action),
      ("status", .str approval.status.value)]
    pure {
      status := .rejected
      allowed := false
      reason := "Approval request rejected."
      approval := some approval }

/-- Reject an approval request; its current status is not looked at. -/
def rejectRequest (approvalId : String) : App ApprovalServiceResponse := do
  match ← ask (.approvals (.get approvalId)) with
  | none => rejectStored approvalId
  | some current =>
    if ← isExpired current then expiredResponse current
    else rejectStored approvalId

end ApprovalService

end MpesaMcp
