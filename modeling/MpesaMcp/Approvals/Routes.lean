import MpesaMcp.App.Http

/-!
# Operator-facing approval routes

Every route requires an approver. The review that a request takes is the one of the operator who is
logged in.
-/

set_option autoImplicit false

namespace MpesaMcp

open Library Python

namespace ApprovalRoutes

variable (authorization : Option String)

/-- `GET /approvals/pending`. -/
def listPendingApprovals : Http RouteResponse :=
  operatorRoute .approver authorization fun _ => do
    let approvals ← Http.call .listPendingRequests
    pure { body := .approvals approvals }

/-- `POST /approvals/expire-stale`. -/
def expireStaleApprovals : Http RouteResponse :=
  operatorRoute .approver authorization fun _ => do
    let expiredCount ← Http.call .expireStaleApprovals
    pure { body := .expired expiredCount }

/-- `GET /approvals/{approval_id}`. -/
def getApproval (approvalId : String) : Http RouteResponse :=
  operatorRoute .approver authorization fun _ => do
    match ← Http.call (.getApprovalRequest approvalId) with
    | none => pure ⟨404, .notFound "Approval request was not found." (some false)⟩
    | some approval => pure { body := .approval approval }

/-- `POST /approvals/{approval_id}/approve`. -/
def approvePaymentRequest (approvalId : String) : Http RouteResponse :=
  operatorRoute .approver authorization fun principal => do
    let response ← Http.call (.executeApprovedPayment approvalId principal.operatorId)
    pure {
      statusCode := if response.status = .notFound then 404 else 200
      body := .execution response }

/-- `POST /approvals/{approval_id}/reject`. -/
def rejectPaymentRequest (approvalId : String) : Http RouteResponse :=
  operatorRoute .approver authorization fun _ => do
    let response ← Http.call (.rejectRequest approvalId)
    pure {
      statusCode := if response.status = .notFound then 404 else 200
      body := .decision response }

end ApprovalRoutes

end MpesaMcp
