import MpesaMcp.Python.Text
import MpesaMcp.Safety.Policy

/-!
# Configurable MCP tool governance policy

Three lists of tool names from the settings. A tool runs where it is enabled, not blocked, and not
among the tools that require an approval; the two tools of the approval flow ignore the last list.
-/

set_option autoImplicit false

namespace MpesaMcp

open Python

/-- `CURRENT_MCP_TOOLS`. -/
def currentMcpTools : List String := [
  "initiate_stk_push",
  "initiate_payment",
  "check_transaction_status",
  "check_payment_status",
  "generate_receipt",
  "get_today_summary",
  "get_failed_transactions",
  "approve_payment_request",
  "reject_payment_request",
  "run_reconciliation"]

/-- `APPROVAL_FLOW_TOOLS`. -/
def approvalFlowTools : List String := ["approve_payment_request", "reject_payment_request"]

/-- Decision returned by MCP tool governance policy. -/
structure ToolPolicyDecision where
  status : PolicyStatus
  allowed : Bool
  reason : String
  requiresApproval : Bool := false
deriving DecidableEq

/-- The settings the policy is built from. -/
structure ToolPolicySettings where
  enabledMcpTools : String := ""
  blockedMcpTools : String := ""
  approvalRequiredMcpTools : String := ""

/-- Evaluate configurable MCP tool governance rules. -/
structure ToolPolicyEngine where
  enabledTools : List String := currentMcpTools
  blockedTools : List String := []
  approvalRequiredTools : List String := []

/-- Parse a comma-separated tool list. -/
def parseToolList (value : String) : List String :=
  ((value.toList.splitOn ',').map fun item => String.ofList (strip item)).filter
    fun item => decide (item ≠ "")

namespace ToolPolicyEngine

/-- Build a tool policy engine from comma-separated settings. -/
def fromSettings (settings : ToolPolicySettings) : ToolPolicyEngine where
  enabledTools :=
    match parseToolList settings.enabledMcpTools with
    | [] => currentMcpTools
    | tools => tools
  blockedTools := parseToolList settings.blockedMcpTools
  approvalRequiredTools := parseToolList settings.approvalRequiredMcpTools

/-- Evaluate whether a tool can execute. -/
def evaluate (self : ToolPolicyEngine) (toolName : String) : ToolPolicyDecision :=
  if toolName ∈ self.blockedTools ∨ toolName ∉ self.enabledTools then
    { status := .blocked, allowed := false, reason := "Tool disabled by policy" }
  else if toolName ∈ self.approvalRequiredTools ∧ toolName ∉ approvalFlowTools then
    { status := .approvalRequired
      allowed := false
      reason := "Tool requires approval by policy"
      requiresApproval := true }
  else { status := .allowed, allowed := true, reason := "Tool allowed by policy" }

example : parseToolList " a, b,," = ["a", "b"] := by decide

end ToolPolicyEngine

end MpesaMcp
