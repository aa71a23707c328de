import MpesaMcp.App.Environment
import MpesaMcp.Library.Keyed
import MpesaMcp.Library.Prog
import MpesaMcp.Python.Value

/-!
# Approval requests and their in-memory repository

An approval request is created pending. The repository has two ways to write an existing one: `save`
stores a record as it is given, `update_status` changes the status of the stored record and stamps
the time. Neither looks at the current status.
-/

set_option autoImplicit false

namespace MpesaMcp

open Library Python

inductive ApprovalStatus
  | pending
  | approved
  | rejected
  | expired
deriving DecidableEq, Repr

def ApprovalStatus.value : ApprovalStatus → String
  | .pending => "pending"
  | .approved => "approved"
  | .rejected => "rejected"
  | .expired => "expired"

/-- Approval request for a risky action. -/
structure ApprovalRequest where
  approvalId : String
  action : String
  payload : PyDict
  reason : String
  status : ApprovalStatus := .pending
  createdAt : Datetime
  expiresAt : Datetime
  reviewedAt : Option Datetime := none
  expiredAt : Option Datetime := none
  requiredReviewers : Int := 1
  reviewerIds : List String := []
  reviewCount : Int := 0

/-- The arguments of `create`. -/
structure CreateApproval where
  action : String
  payload : PyDict
  reason : String
  expiresAt : Datetime
  requiredReviewers : Int := 1

/-- The pending request a creation stores. -/
def CreateApproval.record (args : CreateApproval) (approvalId : String) (createdAt : Datetime) :
    ApprovalRequest where
  approvalId := approvalId
  action := args.action
  payload := args.payload
  reason := args.reason
  createdAt := createdAt
  expiresAt := args.expiresAt
  requiredReviewers := args.requiredReviewers

/-- The record after a change of status: an expiry stamps `expired_at`, the others `reviewed_at`. -/
def ApprovalRequest.withStatus (approval : ApprovalRequest) (status : ApprovalStatus)
    (now : Datetime) : ApprovalRequest :=
  if status = .expired then { approval with status := status, expiredAt := some now }
  else { approval with status := status, reviewedAt := some now }

/-- Interface for approval persistence. -/
inductive ApprovalRepositoryProtocol
  | create (args : CreateApproval)
  | get (approvalId : String)
  | listPending
  | updateStatus (approvalId : String) (status : ApprovalStatus)
  | save (approval : ApprovalRequest)

/-- What each method returns. -/
abbrev ApprovalRepositoryProtocol.Answer : ApprovalRepositoryProtocol → Type
  | .create _ => ApprovalRequest
  | .get _ => Option ApprovalRequest
  | .listPending => List ApprovalRequest
  | .updateStatus _ _ => Option ApprovalRequest
  | .save _ => ApprovalRequest

/-- The dictionary of approval requests by id. -/
abbrev Approvals := Keyed ApprovalRequest.approvalId

namespace InMemoryApprovalRepository

def create (env : Env) (args : CreateApproval) (a : Ambient) (approvals : Approvals) :
    ApprovalRequest × Ambient × Approvals :=
  let (approvalId, a) := a.uuid4 env
  let (createdAt, a) := a.now env
  let approval := args.record approvalId createdAt
  (approval, a, approvals.put approval)

def get (approvalId : String) (approvals : Approvals) : Option ApprovalRequest :=
  approvals.get approvalId

def listPending (approvals : Approvals) : List ApprovalRequest :=
  approvals.values.filter fun approval => decide (approval.status = .pending)

def updateStatus (env : Env) (approvalId : String) (status : ApprovalStatus) (a : Ambient)
    (approvals : Approvals) : Option ApprovalRequest × Ambient × Approvals :=
  match get approvalId approvals with
  | none => (none, a, approvals)
  | some approval =>
    let (now, a) := a.now env
    let updatedApproval := approval.withStatus status now
    (some updatedApproval, a, approvals.put updatedApproval)

def save (approval : ApprovalRequest) (approvals : Approvals) : Approvals := approvals.put approval

/-- One method call. -/
def answer (env : Env) : Handler Exn ApprovalRepositoryProtocol.Answer (Ambient × Approvals)
  | .create args, (a, approvals) =>
    let (approval, a, approvals) := create env args a approvals
    (.ok approval, a, approvals)
  | .get approvalId, (a, approvals) => (.ok (get approvalId approvals), a, approvals)
  | .listPending, (a, approvals) => (.ok (listPending approvals), a, approvals)
  | .updateStatus approvalId status, (a, approvals) =>
    let (approval, a, approvals) := updateStatus env approvalId status a approvals
    (.ok approval, a, approvals)
  | .save approval, (a, approvals) => (.ok approval, a, save approval approvals)

theorem forward_answer (env : Env) (m : ApprovalRepositoryProtocol) (a : Ambient)
    (approvals : Approvals) : a.Forward (answer env m (a, approvals)).2.1 := by
  cases m with
  | create args => exact (a.forward_uuid4 env).trans (Ambient.forward_now env _)
  | updateStatus approvalId status =>
    simp only [answer, updateStatus]
    split
    next => exact .refl a
    next => exact a.forward_now env
  | _ => exact .refl a

end InMemoryApprovalRepository

end MpesaMcp
