import MpesaMcp.Laws.Steps
import MpesaMcp.Laws.ToolCalls
import MpesaMcp.Laws.PaymentGating

/-!
# What a client of the MCP server can release

Every review a tool call makes is made as `mcp_operator`, and an operator reviews a request once. So
a request that needs two reviewers is never completed by tool calls alone.

`SoleReviewer` is the invariant of one stored request: it has at most that one review, and it needs as
many as the service requires for its payload. `ClientState` adds that no payment from the threshold
on was made. The proof goes through the messages of the tools: each keeps `ClientState`
(`clientState_handle`), so every tool call does, and every run of them.
-/

set_option autoImplicit false

namespace MpesaMcp

open Library Python

/-! ## One request -/

/-- The request has no review but of one operator, and needs what its payload requires. -/
structure SoleReviewer (service : ApprovalService) (operatorId : String) (a : ApprovalRequest) :
    Prop where
  reviewers : a.reviewerIds = [] ∨ a.reviewerIds = [operatorId]
  required : a.requiredReviewers = service.requiredReviewersForPayload a.payload

/-- The amount of the payment that a payload names. -/
theorem executablePayload_amount {payload : PyDict} {request : InitiatePayment} {key : String}
    (h : PaymentService.executablePayload payload = some (request, key)) :
    (lookup payload "amount").asInt? = some request.amount := by
  simp only [PaymentService.executablePayload, Option.bind_eq_bind, Option.bind_eq_some_iff] at h
  obtain ⟨phoneNumber, -, amount, hamount, accountReference, -, description, -, key', -, h⟩ := h
  cases h
  exact hamount

/-- A change of status alone leaves the reviewers and what is required of them. -/
@[simp] theorem reviewerIds_withStatus (a : ApprovalRequest) (s : ApprovalStatus) (t : Datetime) :
    (a.withStatus s t).reviewerIds = a.reviewerIds := by
  unfold ApprovalRequest.withStatus
  split <;> rfl

@[simp] theorem requiredReviewers_withStatus (a : ApprovalRequest) (s : ApprovalStatus)
    (t : Datetime) : (a.withStatus s t).requiredReviewers = a.requiredReviewers := by
  unfold ApprovalRequest.withStatus
  split <;> rfl

namespace SoleReviewer

variable {service : ApprovalService} {operatorId : String} {a : ApprovalRequest}

/-- A change of status leaves the reviewers and the number required. -/
theorem withStatus (h : SoleReviewer service operatorId a) (s : ApprovalStatus) (t : Datetime) :
    SoleReviewer service operatorId (a.withStatus s t) := by
  refine ⟨?_, ?_⟩
  · rw [reviewerIds_withStatus]
    exact h.reviewers
  · rw [requiredReviewers_withStatus, ApprovalRequest.payload_withStatus]
    exact h.required

/-- The operator's review is the first one. -/
theorem unreviewed (h : SoleReviewer service operatorId a) (unseen : operatorId ∉ a.reviewerIds) :
    a.reviewerIds = [] := by
  rcases h.reviewers with hnone | hone
  · exact hnone
  · rw [hone] at unseen
    exact absurd List.mem_cons_self unseen

/-- A review by the client's own operator leaves it the only reviewer; one who is listed already cannot
review again. -/
theorem reviewedBy (h : SoleReviewer service operatorId a) (unseen : operatorId ∉ a.reviewerIds)
    (t : Datetime) : SoleReviewer service operatorId (a.reviewedBy operatorId t) := by
  refine ⟨Or.inr ?_, h.required⟩
  show a.reviewerIds ++ [operatorId] = [operatorId]
  rw [h.unreviewed unseen, List.nil_append]

/-- The review that approves leaves the client's operator the only reviewer; one operator can reach the
number required only where it is one. -/
theorem approvedBy (h : SoleReviewer service operatorId a) (unseen : operatorId ∉ a.reviewerIds)
    (t : Datetime) : SoleReviewer service operatorId (a.approvedBy operatorId t) := by
  obtain ⟨hreviewers, hrequired⟩ := h.reviewedBy unseen t
  exact ⟨hreviewers, hrequired⟩

/-- The request that the operator's review completes is for a payment below the threshold, where two
reviewers are required from the threshold on. -/
theorem below (h : SoleReviewer service operatorId a) (two : 2 ≤ service.highRiskRequiredReviewers)
    (unseen : operatorId ∉ a.reviewerIds)
    (enough : a.requiredReviewers ≤ (a.reviewerIds.length : Int) + 1) {request : InitiatePayment}
    {key : String} (payload : PaymentService.executablePayload a.payload = some (request, key)) :
    request.amount < service.highRiskAmountThreshold := by
  rw [h.unreviewed unseen, List.length_nil, h.required, ApprovalService.requiredReviewersForPayload,
    executablePayload_amount payload] at enough
  by_contra hhigh
  simp only [not_lt.mp hhigh, if_true] at enough
  omega

end SoleReviewer

/-- Every stored request is as `SoleReviewer` says. -/
def SolelyReviewed (service : ApprovalService) (operatorId : String) (approvals : Approvals) : Prop :=
  ∀ approvalId a, approvals.get approvalId = some a → SoleReviewer service operatorId a

/-- Whatever the operator of the tools does to a request, it stays its only reviewer. -/
theorem SoleReviewer.keptBy (service : ApprovalService) (operatorId : String) :
    KeptBy operatorId (SoleReviewer service operatorId) where
  withStatus _ status now h := h.withStatus status now
  reviewedBy _ now unseen h := h.reviewedBy unseen now
  approvedBy _ now unseen h := h.approvedBy unseen now

/-! ## One service call -/

section Services

variable {τ π : Type} {env : Env} {container : AppContainer τ π}

/-- No payment from the threshold on was made, and no request has a review but of the operator. -/
structure ClientState (container : AppContainer τ π) (operatorId : String) (w : World τ π) : Prop where
  reviewed : SolelyReviewed container.approvalService operatorId w.approvals
  calls : ∀ call ∈ w.initiations, call.request.amount < container.settings.highRiskAmountThreshold

namespace ClientState

variable {operatorId : String} {w w' : World τ π}

/-- The invariant speaks of the approvals and the calls of the provider alone. -/
theorem congr (h : ClientState container operatorId w) (approvals : w'.approvals = w.approvals)
    (initiations : w'.initiations = w.initiations) : ClientState container operatorId w' := by
  refine ⟨?_, ?_⟩
  · rw [approvals]
    exact h.reviewed
  · rw [initiations]
    exact h.calls

/-- A program that leaves requests and payments alone. -/
theorem spared {α : Type} {p : App α} (h : ClientState container operatorId w)
    (approvals : p.Sends Msg.SparesApprovals) (provider : p.Sends Msg.SparesProvider) :
    ClientState container operatorId (Prog.run (handle env container) p w).2 :=
  h.congr (run_approvals env container approvals w) (run_initiations env container provider w)

/-- At most one more payment, below the threshold. -/
theorem calls_paid (h : ClientState container operatorId w) {request : InitiatePayment}
    (below : request.amount < container.settings.highRiskAmountThreshold)
    (calls : w'.initiations = w.initiations ∨
      ∃ call : Initiation, call.request = request ∧ w'.initiations = w.initiations ++ [call]) :
    ∀ call ∈ w'.initiations, call.request.amount < container.settings.highRiskAmountThreshold := by
  rcases calls with hsame | ⟨call, rfl, hcall⟩
  · rw [hsame]
    exact h.calls
  · intro call' hmem
    rw [hcall] at hmem
    rcases List.mem_append.mp hmem with hold | hnew
    · exact h.calls call' hold
    · rw [List.mem_singleton.mp hnew]
      exact below

end ClientState

/-- A message that files a request only with what its payload requires, and changes none. -/
def Msg.FilesUnder (service : ApprovalService) : Msg → Prop
  | .approvals (.create args) =>
    args.requiredReviewers = service.requiredReviewersForPayload args.payload
  | .approvals _ => False
  | _ => True

theorem Msg.OfExecution.filesUnder {service : ApprovalService} {m : Msg} (h : m.OfExecution) :
    m.FilesUnder service := by
  cases m <;> trivial

open PaymentService in
/-- What an initiation files carries the number of reviewers that the rules ask for. -/
theorem files_initiateStkPush (py : Runtime) (self : PaymentService) (args : InitiateStkPush) :
    (self.initiateStkPush py args).Sends (Msg.FilesUnder self.approvalService) := by
  unfold initiateStkPush
  dsimp only
  split
  next =>
    cases requestedPayment args with
    | none => trivial
    | some request =>
      refine .bind ?_ fun approval => .bind ((sends_ask _).mpr trivial) fun _ => trivial
      refine .bind ((sends_ask _).mpr trivial) fun createdAt => ?_
      cases Datetime.addMinutes createdAt self.approvalService.expiryMinutes with
      | none => trivial
      | some expiresAt =>
        exact .bind ((sends_ask _).mpr rfl) fun _ => .bind ((sends_ask _).mpr trivial) fun _ => trivial
  next =>
    split
    next => trivial
    next =>
      cases requestedPayment args with
      | none => trivial
      | some request => exact (sends_executeStkPush request _).mono fun _ => Msg.OfExecution.filesUnder

/-- A request is filed without reviewers; every other message leaves the approvals as they were or was
sent by the one operator. -/
theorem reviewed_files {service : ApprovalService} {operatorId : String} {m : Msg}
    (hm : m.FilesUnder service) {w : World τ π}
    (h : SolelyReviewed service operatorId w.approvals) :
    SolelyReviewed service operatorId (handle env container m w).2.approvals := by
  cases m with
  | approvals m =>
    cases m with
    | create args => exact Stored.put h ⟨Or.inl rfl, hm⟩
    | _ => exact absurd hm id
  | provider m =>
    rw [handle_approvals env container (m := .provider m) trivial w]
    exact h
  | _ => exact h

variable {operatorId : String}

/-- `initiate_stk_push` pays at once only up to the limit. -/
theorem clientState_initiateStkPush
    (limit : container.settings.maxStkAmount < container.settings.highRiskAmountThreshold)
    (args : InitiateStkPush) {w : World τ π} (h : ClientState container operatorId w) :
    ClientState container operatorId (Prog.run (handle env container)
      (container.paymentService.initiateStkPush env.toRuntime args) w).2 := by
  have hreviewed : SolelyReviewed container.approvalService operatorId (Prog.run (handle env container)
      (container.paymentService.initiateStkPush env.toRuntime args) w).2.approvals := by
    refine Prog.run_kept (I := fun s : World τ π =>
      SolelyReviewed container.approvalService operatorId s.approvals) ?_
      (files_initiateStkPush env.toRuntime container.paymentService args) h.reviewed
    intro m hm s
    exact reviewed_files hm
  refine ⟨hreviewed, ?_⟩
  obtain ⟨output, w', hrun, hcase⟩ := initiation_cases env container args w
  rw [hrun]
  cases hcase with
  | quiet _ idle =>
    rw [idle.2]
    exact h.calls
  | filed _ _ _ _ _ _ _ _ _ _ idle =>
    rw [idle.2]
    exact h.calls
  | paid request _ _ within ran =>
    have hcalls := run_executeStkPush_initiations env container request
      (PaymentService.keyFor env.toRuntime args request) w
    rw [ran] at hcalls
    exact h.calls_paid (lt_of_le_of_lt within limit) hcalls

/-- A review by the operator releases no payment that requires a second one. -/
theorem clientState_executeApprovedPayment
    (two : 2 ≤ container.settings.highRiskApprovalRequiredReviewers) (approvalId : String)
    {w : World τ π} (h : ClientState container operatorId w) :
    ClientState container operatorId (Prog.run (handle env container)
      (PaymentService.executeApprovedPayment approvalId operatorId) w).2 := by
  refine ⟨Stored.executeApprovedPayment env container (SoleReviewer.keptBy _ _) approvalId h.reviewed,
    ?_⟩
  obtain ⟨output, w', hrun, hcase⟩ := execution_cases env container approvalId operatorId w
  rw [hrun]
  cases hcase with
  | absent _ _ _ idle => exact idle.2 ▸ h.calls
  | expired _ _ _ _ _ idle => exact idle.2 ▸ h.calls
  | refused _ _ _ _ _ idle => exact idle.2 ▸ h.calls
  | reviewed _ _ _ _ _ _ _ _ idle => exact idle.2 ▸ h.calls
  | approved a stored _ _ unseen enough w₁ _ _ idle paid =>
    obtain ⟨-, hcalls⟩ := run_executeApprovedStkPush env container a.payload w₁
    rw [← paid, idle.2] at hcalls
    rcases hcalls with hquiet | ⟨call, key, hpayload, hcall⟩
    · exact hquiet ▸ h.calls
    · exact h.calls_paid ((h.reviewed approvalId a stored).below two unseen enough hpayload)
        (Or.inr ⟨call, rfl, hcall⟩)

/-- A rejection pays nothing and adds no reviewer. -/
theorem clientState_rejectRequest (approvalId : String) {w : World τ π}
    (h : ClientState container operatorId w) :
    ClientState container operatorId (Prog.run (handle env container)
      (ApprovalService.rejectRequest approvalId) w).2 := by
  refine ⟨Stored.rejectRequest env container (SoleReviewer.keptBy _ _).withStatus approvalId h.reviewed,
    ?_⟩
  rw [(run_idle env container (ApprovalService.sends_rejectRequest approvalId) w).2]
  exact h.calls

end Services

/-! ## Every tool call -/

section Tools

variable {τ π ρ : Type}

/-- A message of a tool: it reviews as `mcp_operator` only. -/
def McpMsg.ReviewsAsMcp : McpMsg → Prop
  | .executeApprovedPayment _ operatorId => operatorId = "mcp_operator"
  | _ => True

/-- No handler reviews under another name. -/
theorem ToolCall.MaySend.reviewsAsMcp {call : ToolCall} {m : McpMsg} (h : call.MaySend m) :
    m.ReviewsAsMcp := by
  cases m with
  | executeApprovedPayment approvalId operatorId =>
    cases call with
    | approvePaymentRequest => exact h
    | _ => exact absurd h id
  | _ => trivial

theorem sends_checkTransactionStatus (self : TransactionService) (checkoutRequestId : String) :
    (self.checkTransactionStatus checkoutRequestId).Sends Msg.OfReading := by
  refine .bind ((sends_ask _).mpr trivial) fun _ => ?_
  split
  next => trivial
  next =>
    dsimp only
    split
    next => trivial
    next =>
      exact .bind ((sends_ask _).mpr trivial) fun _ => .bind ((sends_ask _).mpr trivial) fun _ =>
        .bind ((sends_ask _).mpr trivial) fun _ => trivial

/-- The settings under which a high-risk payment needs a second reviewer. -/
structure TwoReviewers (settings : Settings) : Prop where
  limit : settings.maxStkAmount < settings.highRiskAmountThreshold
  two : 2 ≤ settings.highRiskApprovalRequiredReviewers

/-- One message of a tool. -/
theorem clientState_handle (env : Env) {container : McpDependencies τ π ρ}
    (settings : TwoReviewers container.settings) {m : McpMsg} (hm : m.ReviewsAsMcp)
    {w : McpWorld τ π ρ} (h : ClientState container.toAppContainer "mcp_operator" w.app) :
    ClientState container.toAppContainer "mcp_operator" (handleMcp env container m w).2.app := by
  have reading : ∀ {α : Type} {method : App α}, method.Sends Msg.OfReading →
      ClientState container.toAppContainer "mcp_operator" (serve env container method w).2.app :=
    fun hsends => h.spared (hsends.mono fun _ => Msg.OfReading.sparesApprovals)
      (hsends.mono fun _ => Msg.OfReading.sparesProvider)
  cases m with
  | allow key limit windowSeconds => exact h.congr rfl rfl
  | initiateStkPush args => exact clientState_initiateStkPush settings.limit args h
  | checkTransactionStatus checkoutRequestId =>
    exact reading (sends_checkTransactionStatus container.transactionService checkoutRequestId)
  | generateReceipt checkoutRequestId =>
    exact reading (ReceiptService.sends_generateReceipt checkoutRequestId)
  | getTodaySummary => exact reading AnalyticsService.sends_getTodaySummary
  | getFailedTransactions => exact reading AnalyticsService.sends_getFailedTransactions
  | executeApprovedPayment approvalId operatorId =>
    cases hm
    exact clientState_executeApprovedPayment settings.two approvalId h
  | rejectRequest approvalId => exact clientState_rejectRequest approvalId h
  | runReconciliation => exact reading container.reconciliationService.sends_runReconciliation

/-- **No high-risk payment from tool calls alone**: where high-risk payments exceed the limit and
require two reviewers, no sequence of tool calls from a fresh container has the provider asked for a
payment from the threshold on, whatever the provider and the rate limiter do. -/
theorem no_high_risk_payment_by_tools (env : Env) (pydantic : Pydantic)
    (container : McpDependencies τ π ρ)
    (limit : container.settings.maxStkAmount < container.settings.highRiskAmountThreshold)
    (two : 2 ≤ container.settings.highRiskApprovalRequiredReviewers)
    (transactions : τ) (provider : π) (limiter : ρ) (toolCalls : List ToolCall) :
    ∀ call ∈ (final (mcpStep env pydantic container)
        { app := start transactions provider, limiter := limiter } toolCalls).app.initiations,
      call.request.amount < container.settings.highRiskAmountThreshold := by
  have hstart : ClientState container.toAppContainer "mcp_operator"
      (start transactions provider : World τ π) := by
    refine ⟨?_, ?_⟩
    · intro approvalId a ha
      cases ha
    · intro call hcall
      cases hcall
  suffices hfinal : ClientState container.toAppContainer "mcp_operator"
      (final (mcpStep env pydantic container)
        { app := start transactions provider, limiter := limiter } toolCalls).app from hfinal.calls
  refine state_invariant (I := fun w : McpWorld τ π ρ =>
    ClientState container.toAppContainer "mcp_operator" w.app) hstart ?_ toolCalls
  · intro w call h
    refine Prog.run_kept (I := fun s : McpWorld τ π ρ =>
      ClientState container.toAppContainer "mcp_operator" s.app) ?_
      (sends_createToolHandlers pydantic container call) h
    intro m hm s
    exact clientState_handle env ⟨limit, two⟩ hm.reviewsAsMcp

end Tools

/-- A push of sixty thousand shillings is filed, and the client approves it twice. -/
def selfApproval : List ToolCall := [
  .initiateStkPush (.str "254700000001") (.int 60000) (.str "ref") (.str "d") .none,
  .approvePaymentRequest (.str "1"),
  .approvePaymentRequest (.str "1")]

theorem no_high_risk_payment_by_tools_default :
    (final (mcpStep Env.still .strict (.memory (.mock {}) {}))
        { app := start Keyed.empty (), limiter := Keyed.empty } selfApproval).app.initiations.all
      (fun call => decide (call.request.amount < 50000)) = true := by
  refine List.all_eq_true.mpr fun call hcall => decide_eq_true ?_
  exact no_high_risk_payment_by_tools Env.still .strict (.memory (.mock {}) {}) (by decide)
    (by decide) Keyed.empty () Keyed.empty selfApproval call hcall

end MpesaMcp
