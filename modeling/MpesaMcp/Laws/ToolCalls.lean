import MpesaMcp.Laws.Frames
import MpesaMcp.Mcp.Server

/-!
# Tool calls

What a tool sends, and what a run of one does. `sends_guardedTool` is the rule for the messages of a
tool, `run_guardedTool` says what a tool does that its policy and its input let pass.
`sends_createToolHandlers` lists what every handler may send.
-/

set_option autoImplicit false

namespace MpesaMcp

open Library Python

/-- A tool call goes on exactly where the policy allows its tool. -/
@[simp] theorem checkToolPolicy_eq_none {toolName : String} {toolPolicy : ToolPolicyEngine} :
    checkToolPolicy toolName toolPolicy = none ↔ (toolPolicy.evaluate toolName).allowed = true := by
  cases h : (toolPolicy.evaluate toolName).allowed <;> simp [checkToolPolicy, h]

section Tool

variable {α : Type} {toolName : String} {toolPolicy : ToolPolicyEngine}
  {validated : Except (List String) α} {limit : Option (RateLimitArguments × (α → String))}
  {delegated : α → Mcp McpToolResponse}

/-- The rate limit is asked for once, under the key of the call. -/
theorem sends_checkRateLimit {P : McpMsg → Prop} {limits : RateLimitArguments} {key : String}
    (h : P (.allow key limits.maxRequests limits.windowSeconds)) :
    (checkRateLimit limits key).Sends P := by
  unfold checkRateLimit
  split
  next => trivial
  next =>
    refine .bind (.attempt ((Prog.sends_send _).mpr h)) fun answer => ?_
    cases answer <;> trivial

theorem sends_delegate {P : McpMsg → Prop} {m : McpMsg} {respond : m.Answer → McpToolResponse}
    (h : P m) : (delegate m respond).Sends P :=
  .bind ((Prog.sends_send _).mpr h) fun _ => trivial

/-- A tool sends the message of its limit and those of its delegation. -/
theorem sends_guardedTool {P : McpMsg → Prop}
    (limited : ∀ limits key, limit = some (limits, key) → ∀ toolInput,
      P (.allow (key toolInput) limits.maxRequests limits.windowSeconds))
    (delegates : ∀ toolInput, (delegated toolInput).Sends P) :
    (guardedTool toolName toolPolicy validated limit delegated).Sends P := by
  unfold guardedTool
  split
  next => trivial
  next =>
    split
    next => trivial
    next toolInput =>
      split
      next => exact delegates toolInput
      next limits key =>
        refine .bind (sends_checkRateLimit (limited limits key rfl toolInput)) fun answer => ?_
        cases answer with
        | some response => trivial
        | none => exact delegates toolInput

/-- A tool without a limit. -/
theorem sends_unlimitedTool {P : McpMsg → Prop}
    (delegates : ∀ toolInput, (delegated toolInput).Sends P) :
    (guardedTool toolName toolPolicy validated none delegated).Sends P :=
  sends_guardedTool (fun _ _ h => by cases h) delegates

/-- A tool with a limit. -/
theorem sends_limitedTool {P : McpMsg → Prop} {limits : RateLimitArguments} {key : α → String}
    (limited : ∀ toolInput, P (.allow (key toolInput) limits.maxRequests limits.windowSeconds))
    (delegates : ∀ toolInput, (delegated toolInput).Sends P) :
    (guardedTool toolName toolPolicy validated (some (limits, key)) delegated).Sends P :=
  sends_guardedTool (fun _ _ h => by cases h; exact limited) delegates

/-- A tool whose policy or input does not let it pass sends nothing. -/
theorem sends_refusedTool {P : McpMsg → Prop}
    (h : (toolPolicy.evaluate toolName).allowed = false ∨ ∃ errors, validated = .error errors) :
    (guardedTool toolName toolPolicy validated limit delegated).Sends P := by
  unfold guardedTool
  cases hpolicy : checkToolPolicy toolName toolPolicy with
  | some response => trivial
  | none =>
    rcases h with h | ⟨errors, rfl⟩
    · rw [checkToolPolicy_eq_none, h] at hpolicy
      cases hpolicy
    · trivial

/-- A tool that passes and is under an enabled limit: the limiter decides. -/
theorem run_guardedTool {σ : Type} (handler : Handler Exn McpMsg.Answer σ)
    {limits : RateLimitArguments} {key : α → String} {toolInput : α}
    (policy : (toolPolicy.evaluate toolName).allowed = true) (valid : validated = .ok toolInput)
    (enabled : limits.enabled = true) {decision : RateLimitDecision} {s s' : σ}
    (decided : handler (.allow (key toolInput) limits.maxRequests limits.windowSeconds) s =
      (.ok decision, s')) :
    Prog.run handler (guardedTool toolName toolPolicy validated (some (limits, key)) delegated) s =
      if decision.allowed then Prog.run handler (delegated toolInput) s'
      else (.ok (rateLimited decision), s') := by
  simp only [guardedTool, checkToolPolicy_eq_none.mpr policy, valid, checkRateLimit, enabled,
    Bool.not_true, Bool.false_eq_true, if_false, Prog.run_bind, Prog.run_attempt, Mcp.run_call, decided,
    Prog.run_pure]
  cases decision.allowed <;> rfl

end Tool

/-! ## The handlers -/

/-- The limit a tool asks for, where it has one: the key starts with the name of the tool. -/
def ToolCall.keyPrefix : ToolCall → Option String
  | .initiateStkPush .. => some "initiate_stk_push:"
  | .initiatePayment .. => some "initiate_payment:"
  | .checkTransactionStatus _ => some "check_transaction_status:"
  | .checkPaymentStatus _ => some "check_payment_status:"
  | .approvePaymentRequest _ => some "approve_payment_request:"
  | .rejectPaymentRequest _ => some "reject_payment_request:"
  | _ => none

/-- What a handler may send: the question for its limit, and the one call it delegates to. -/
def ToolCall.MaySend : ToolCall → McpMsg → Prop
  | call, .allow key _ _ => ∃ keyPrefix ∈ call.keyPrefix, keyPrefix.toList <+: key.toList
  | .initiateStkPush .., .initiateStkPush _ => True
  | .initiatePayment .., .initiateStkPush _ => True
  | .checkTransactionStatus _, .checkTransactionStatus _ => True
  | .checkPaymentStatus _, .checkTransactionStatus _ => True
  | .generateReceipt _, .generateReceipt _ => True
  | .getTodaySummary, .getTodaySummary => True
  | .getFailedTransactions, .getFailedTransactions => True
  | .approvePaymentRequest _, .executeApprovedPayment _ operatorId => operatorId = "mcp_operator"
  | .rejectPaymentRequest _, .rejectRequest _ => True
  | .runReconciliation, .runReconciliation => True
  | _, _ => False

theorem maySend_allow {call : ToolCall} {keyPrefix : String} (h : call.keyPrefix = some keyPrefix)
    (text : String) (limit windowSeconds : Int) :
    call.MaySend (.allow (keyPrefix ++ text) limit windowSeconds) := by
  have hstart : keyPrefix.toList <+: (keyPrefix ++ text).toList := by
    rw [String.toList_append]
    exact List.prefix_append _ _
  cases call <;> exact ⟨keyPrefix, h, hstart⟩

/-- The messages of every handler. -/
theorem sends_createToolHandlers {τ π ρ : Type} (pydantic : Pydantic)
    (container : McpDependencies τ π ρ) (call : ToolCall) :
    (createToolHandlers pydantic container call).Sends call.MaySend := by
  cases call with
  | initiateStkPush =>
    unfold createToolHandlers initiateStkPushTool
    exact sends_limitedTool (fun _ => maySend_allow rfl _ _ _) fun _ => sends_delegate trivial
  | initiatePayment =>
    unfold createToolHandlers initiatePaymentTool
    exact sends_limitedTool (fun _ => maySend_allow rfl _ _ _) fun _ => sends_delegate trivial
  | checkTransactionStatus =>
    unfold createToolHandlers checkTransactionStatusTool
    exact sends_limitedTool (fun _ => maySend_allow rfl _ _ _) fun _ => sends_delegate trivial
  | checkPaymentStatus =>
    unfold createToolHandlers checkPaymentStatusTool
    exact sends_limitedTool (fun _ => maySend_allow rfl _ _ _) fun _ => sends_delegate trivial
  | generateReceipt =>
    unfold createToolHandlers generateReceiptTool
    exact sends_unlimitedTool fun _ => sends_delegate trivial
  | getTodaySummary =>
    unfold createToolHandlers getTodaySummaryTool
    exact sends_unlimitedTool fun _ => sends_delegate trivial
  | getFailedTransactions =>
    unfold createToolHandlers getFailedTransactionsTool
    exact sends_unlimitedTool fun _ => sends_delegate trivial
  | approvePaymentRequest =>
    unfold createToolHandlers approvePaymentRequestTool
    exact sends_limitedTool (fun _ => maySend_allow rfl _ _ _) fun _ => sends_delegate rfl
  | rejectPaymentRequest =>
    unfold createToolHandlers rejectPaymentRequestTool
    exact sends_limitedTool (fun _ => maySend_allow rfl _ _ _) fun _ => sends_delegate trivial
  | runReconciliation =>
    unfold createToolHandlers runReconciliationTool
    exact sends_unlimitedTool fun _ => sends_delegate trivial

section Run

variable {τ π ρ : Type} (env : Env) (pydantic : Pydantic) (container : McpDependencies τ π ρ)

@[simp] theorem serve_limiter {α : Type} (method : App α) (w : McpWorld τ π ρ) :
    (serve env container method w).2.limiter = w.limiter := rfl

@[simp] theorem serve_pushCalls {α : Type} (method : App α) (w : McpWorld τ π ρ) :
    (serve env container method w).2.pushCalls = w.pushCalls := rfl

/-- A method that a tool serves moves the clock and the ids only forward. -/
theorem serve_forward {α : Type} (method : App α) (w : McpWorld τ π ρ) :
    w.app.ambient.Forward (serve env container method w).2.app.ambient :=
  run_forward env container.toAppContainer method w.app

/-- A message of a tool moves the clock and the ids only forward; the limiter reads the clock too. -/
theorem handleMcp_forward (m : McpMsg) (w : McpWorld τ π ρ) :
    w.app.ambient.Forward (handleMcp env container m w).2.app.ambient := by
  cases m with
  | allow key limit windowSeconds =>
    exact container.rateLimiter.forward env key limit windowSeconds w.app.ambient w.limiter
  | _ => exact serve_forward env container _ _

/-- A tool call never turns a clock back. -/
theorem mcpStep_forward (call : ToolCall) (w : McpWorld τ π ρ) :
    w.app.ambient.Forward (mcpStep env pydantic container call w).2.app.ambient :=
  Prog.run_related (R := fun s s' => s.app.ambient.Forward s'.app.ambient)
    (fun s => .refl s.app.ambient) (fun _ _ _ => .trans)
    (fun m _ => handleMcp_forward env container m) (Prog.sends_true _) w

end Run

end MpesaMcp
