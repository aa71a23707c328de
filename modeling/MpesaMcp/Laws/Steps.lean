import MpesaMcp.Laws.Payments

/-!
# What one step can do to requests and provider calls

`step_cases` is the inversion lemma of `step` for the stored approval requests and the record of
provider calls; every invariant about the two is derived from it. Operations of the callback route,
of receipts, analytics and reconciliation, and direct calls of the transaction repository touch
neither. `Stored` is about what single requests keep through reviews, rejections and expiries.
-/

set_option autoImplicit false

namespace MpesaMcp

open Library Python

open ApprovalRequest (Move)

variable {τ π : Type} (env : Env) (container : AppContainer τ π)

/-- A move of a stored request in an operation; only `reject_request` rejects, and its own id. -/
def MovesBy (op : Op) (a b : ApprovalRequest) : Prop :=
  (∃ k, Move env k a b) ∧ (b.status = .rejected → op = .rejectRequest a.approvalId)

/-- What one step does to the stored requests and the record of provider calls. -/
inductive StepCase (w : World τ π) (op : Op) (output : Except Exn Reply) (w' : World τ π) : Prop
  | moved (moves : MovesOnly (MovesBy env op) w.approvals w'.approvals)
      (calls : w'.initiations = w.initiations)
  | filed (args : InitiateStkPush) (input : op = .initiateStkPush args)
      (request : InitiatePayment) (requested : PaymentService.requestedPayment args = some request)
      (positive : 0 < request.amount) (above : container.settings.maxStkAmount < request.amount)
      (approval : ApprovalRequest) (drawn : approval.approvalId = env.uuid4 w.ambient.uuidDraws)
      (payload : approval.payload = PaymentService.approvalPayload request
        (PaymentService.keyFor env.toRuntime args request))
      (blank : approval.status = .pending ∧ approval.reviewerIds = [])
      (answer : ∃ response, output = .ok (.payment response) ∧
        response.approvalId = some approval.approvalId)
      (put : w'.approvals = w.approvals.put approval) (calls : w'.initiations = w.initiations)
      (draws : w'.ambient.uuidDraws = w.ambient.uuidDraws + 1)
  | paid (args : InitiateStkPush) (input : op = .initiateStkPush args)
      (request : InitiatePayment) (requested : PaymentService.requestedPayment args = some request)
      (positive : 0 < request.amount) (within : request.amount ≤ container.settings.maxStkAmount)
      (same : w'.approvals = w.approvals)
      (calls : ∃ call : Initiation, call.request = request ∧
        w'.initiations = w.initiations ++ [call])
  | executed (approvalId operatorId : String)
      (input : op = .executeApprovedPayment approvalId operatorId) (a : ApprovalRequest)
      (stored : w.approvals.get approvalId = some a) (pending : a.status = .pending)
      (early : env.clock (w.ambient.clockReads + 1) < a.expiresAt)
      (unseen : operatorId ∉ a.reviewerIds)
      (enough : a.requiredReviewers ≤ (a.reviewerIds.length : Int) + 1)
      (reads : w.ambient.clockReads + 3 ≤ w'.ambient.clockReads)
      (put : w'.approvals = w.approvals.put
        (a.approvedBy operatorId (env.clock (w.ambient.clockReads + 2))))
      (calls : w'.initiations = w.initiations ∨ ∃ call : Initiation, ∃ idempotencyKey,
        PaymentService.executablePayload a.payload = some (call.request, idempotencyKey) ∧
        w'.initiations = w.initiations ++ [call])

/-- An operation that sends no message to the approvals and none to `initiate_payment`. -/
theorem StepCase.of_spared {op : Op} {w : World τ π}
    (approvals : (program container env.toRuntime op).Sends Msg.SparesApprovals)
    (provider : (program container env.toRuntime op).Sends Msg.SparesProvider) :
    StepCase env container w op (step env container op w).1 (step env container op w).2 :=
  .moved (.of_eq (run_approvals env container approvals w))
    (run_initiations env container provider w)

/-- What only reads leaves the approvals and the provider alone, by its vocabulary. -/
theorem StepCase.of_reading {op : Op} {w : World τ π}
    (sends : (program container env.toRuntime op).Sends Msg.OfReading) :
    StepCase env container w op (step env container op w).1 (step env container op w).2 :=
  .of_spared env container (sends.mono fun _ => Msg.OfReading.sparesApprovals)
    (sends.mono fun _ => Msg.OfReading.sparesProvider)

/-- A callback leaves the approvals and the provider alone, by its vocabulary. -/
theorem StepCase.of_callback {op : Op} {w : World τ π}
    (sends : (program container env.toRuntime op).Sends Msg.OfCallback) :
    StepCase env container w op (step env container op w).1 (step env container op w).2 :=
  .of_spared env container (sends.mono fun _ => Msg.OfCallback.sparesApprovals)
    (sends.mono fun _ => Msg.OfCallback.sparesProvider)

/-- An operation of the approval service. -/
theorem StepCase.of_approvals {op : Op} {w : World τ π}
    (sends : (program container env.toRuntime op).Sends Msg.OfApprovals)
    (moves : MovesOnly (MovesBy env op) w.approvals (step env container op w).2.approvals) :
    StepCase env container w op (step env container op w).1 (step env container op w).2 :=
  .moved moves (run_idle env container sends w).2

/-- Any operation may expire what is due. -/
theorem Expires.movesBy {op : Op} {a b : ApprovalRequest} (h : Expires env a b) :
    MovesBy env op a b := by
  refine ⟨h.move, fun hrejected => ?_⟩
  obtain ⟨-, k, -, rfl⟩ := h
  simp at hrejected

/-! ## The operations that write requests -/

/-- Approving moves one request by a review, or expires it where it is due. -/
theorem step_approveRequest (approvalId operatorId : String) (w : World τ π) :
    MovesOnly (MovesBy env (.approveRequest approvalId operatorId)) w.approvals
      (step env container (.approveRequest approvalId operatorId) w).2.approvals := by
  obtain ⟨response, w', hrun, hcase⟩ := review_cases env container approvalId operatorId w
  have hstep : (step env container (.approveRequest approvalId operatorId) w).2 = w' :=
    step_after env container rfl hrun
  rw [hstep]
  cases hcase with
  | absent _ _ same => exact .of_eq same
  | refused _ _ _ _ same => exact .of_eq same
  | expired a stored pending due _ put =>
    rw [put]
    exact .of_put stored (by simp) ⟨⟨_, .expire pending due⟩, by simp⟩
  | reviewed a stored pending early unseen short _ put =>
    rw [put]
    refine .of_put stored rfl ⟨⟨_, .review operatorId pending early unseen short⟩, fun h => ?_⟩
    exact absurd (pending.symm.trans h) (by decide)
  | approved a stored pending early unseen enough _ put =>
    rw [put]
    exact .of_put stored rfl ⟨⟨_, .approve operatorId pending early unseen enough⟩, nofun⟩

/-- Rejecting moves the request it names, whatever its status was, and no other. -/
theorem step_rejectRequest (approvalId : String) (w : World τ π) :
    MovesOnly (MovesBy env (.rejectRequest approvalId)) w.approvals
      (step env container (.rejectRequest approvalId) w).2.approvals := by
  obtain ⟨response, w', hrun, hcase⟩ := reject_cases env container approvalId w
  have hstep : (step env container (.rejectRequest approvalId) w).2 = w' :=
    step_after env container rfl hrun
  rw [hstep]
  cases hcase with
  | absent _ _ same => exact .of_eq same
  | expired a stored pending due _ put =>
    rw [put]
    exact .of_put stored (by simp) ⟨⟨_, .expire pending due⟩, by simp⟩
  | rejected a stored now _ put =>
    rw [put]
    refine .of_put stored (by simp) ⟨⟨0, .reject now⟩, fun _ => ?_⟩
    rw [Keyed.key_of_get stored]

/-- The sweep expires what is due and moves nothing else. -/
theorem step_expireStaleApprovals (w : World τ π) :
    MovesOnly (MovesBy env .expireStaleApprovals) w.approvals
      (step env container .expireStaleApprovals w).2.approvals := by
  obtain ⟨count, w', hrun, hmoves⟩ := run_expireStaleApprovals env container w
  have hstep : (step env container .expireStaleApprovals w).2 = w' :=
    step_after env container rfl hrun
  rw [hstep]
  exact hmoves.mono fun _ _ h => h.movesBy env

/-- The listing moves what the sweep moves. -/
theorem step_listPendingRequests (w : World τ π) :
    MovesOnly (MovesBy env .listPendingRequests) w.approvals
      (step env container .listPendingRequests w).2.approvals := by
  obtain ⟨approvals, w', hrun, hmoves⟩ := run_listPendingRequests env container w
  have hstep : (step env container .listPendingRequests w).2 = w' :=
    step_after env container rfl hrun
  rw [hstep]
  exact hmoves.mono fun _ _ h => h.movesBy env

/-- A payment behind an approval: approvals as they were, and at most one call, for the payload. A
payload that cannot be rebuilt makes none. -/
theorem run_executeApprovedStkPush (payload : PyDict) (w : World τ π) :
    let w' := (Prog.run (handle env container)
      (PaymentService.executeApprovedStkPush payload) w).2
    w'.approvals = w.approvals ∧
      (w'.initiations = w.initiations ∨ ∃ call : Initiation, ∃ idempotencyKey,
        PaymentService.executablePayload payload = some (call.request, idempotencyKey) ∧
        w'.initiations = w.initiations ++ [call]) := by
  refine ⟨run_approvals env container ((PaymentService.sends_executeApprovedStkPush payload).mono
    fun _ => Msg.OfExecution.sparesApprovals) w, ?_⟩
  unfold PaymentService.executeApprovedStkPush
  cases hpayload : PaymentService.executablePayload payload with
  | none => exact Or.inl rfl
  | some named =>
    obtain ⟨request, idempotencyKey⟩ := named
    rcases run_executeStkPush_initiations env container request idempotencyKey w with
      h | ⟨call, hcall, h⟩
    · exact Or.inl h
    · exact Or.inr ⟨call, idempotencyKey, by rw [hcall], h⟩

/-- An execution reviews the request and calls the provider where the review approves it: at most once,
and for the payment that the request carries. -/
theorem step_executeApprovedPayment (approvalId operatorId : String) (w : World τ π) :
    StepCase env container w (.executeApprovedPayment approvalId operatorId)
      (step env container (.executeApprovedPayment approvalId operatorId) w).1
      (step env container (.executeApprovedPayment approvalId operatorId) w).2 := by
  obtain ⟨output, w', hrun, hcase⟩ := execution_cases env container approvalId operatorId w
  have hstep : (step env container (.executeApprovedPayment approvalId operatorId) w).2 = w' :=
    step_after env container rfl hrun
  rw [hstep]
  cases hcase with
  | absent _ _ same idle => exact .moved (.of_eq same) idle.2
  | expired _ _ _ _ moves idle => exact .moved (moves.mono fun _ _ h => h.movesBy env) idle.2
  | refused _ _ _ _ same idle => exact .moved (.of_eq same) idle.2
  | reviewed a stored pending early unseen short _ put idle =>
    refine .moved ?_ idle.2
    rw [put]
    refine .of_put stored rfl ⟨⟨_, .review operatorId pending early unseen short⟩, fun h => ?_⟩
    exact absurd (pending.symm.trans h) (by decide)
  | approved a stored pending early unseen enough w₁ reads put idle paid _ =>
    obtain ⟨hsame, hcalls⟩ := run_executeApprovedStkPush env container a.payload w₁
    have hforward := run_forward env container
      (PaymentService.executeApprovedStkPush a.payload) w₁
    rw [← paid] at hsame hcalls hforward
    rw [idle.2] at hcalls
    exact .executed approvalId operatorId rfl a stored pending early unseen enough
      (reads ▸ hforward.clockReads) (hsame.trans put) hcalls

/-- An initiation calls the provider, or creates a request; never both. -/
theorem step_initiateStkPush (args : InitiateStkPush) (w : World τ π) :
    StepCase env container w (.initiateStkPush args)
      (step env container (.initiateStkPush args) w).1
      (step env container (.initiateStkPush args) w).2 := by
  obtain ⟨output, w', hrun, hcase⟩ := initiation_cases env container args w
  have hstep : step env container (.initiateStkPush args) w = (output.map .payment, w') := by
    simp only [step, program, Prog.run_map, hrun]
  rw [hstep]
  cases hcase with
  | quiet same idle => exact .moved (.of_eq same) idle.2
  | filed request requested positive above approval drawn payload blank answer put idle draws =>
    refine .filed args rfl request requested positive above approval drawn payload blank ?_ put
      idle.2 draws
    obtain ⟨response, rfl, hid⟩ := answer
    exact ⟨response, rfl, hid⟩
  | paid request requested positive within ran =>
    have hsame := run_approvals env container ((PaymentService.sends_executeStkPush request
      (PaymentService.keyFor env.toRuntime args request)).mono
        fun _ => Msg.OfExecution.sparesApprovals) w
    have hcalls := run_executeStkPush_initiations env container request
      (PaymentService.keyFor env.toRuntime args request) w
    rw [ran] at hsame hcalls
    rcases hcalls with hquiet | hcall
    · exact .moved (.of_eq hsame) hquiet
    · exact .paid args rfl request requested positive within hsame hcall

/-! ## Every operation -/

/-- **The inversion lemma of `step`** for requests and provider calls: whatever an operation is, it
moves requests, files one, or makes one call of the provider, each under the conditions of its case.
The invariants of runs are derived from these cases. -/
theorem step_cases (op : Op) (w : World τ π) :
    StepCase env container w op (step env container op w).1 (step env container op w).2 := by
  cases op with
  | initiateStkPush args => exact step_initiateStkPush env container args w
  | executeApprovedPayment approvalId operatorId =>
    exact step_executeApprovedPayment env container approvalId operatorId w
  | approveRequest approvalId operatorId =>
    exact .of_approvals env container (.map (ApprovalService.sends_approveRequest _ _) _)
      (step_approveRequest env container approvalId operatorId w)
  | rejectRequest approvalId =>
    exact .of_approvals env container (.map (ApprovalService.sends_rejectRequest _) _)
      (step_rejectRequest env container approvalId w)
  | expireStaleApprovals =>
    exact .of_approvals env container (.map ApprovalService.sends_expireStaleApprovals _)
      (step_expireStaleApprovals env container w)
  | listPendingRequests =>
    exact .of_approvals env container (.map ApprovalService.sends_listPendingRequests _)
      (step_listPendingRequests env container w)
  | savePendingTransaction args =>
    exact .of_spared env container (.map ((sends_ask _).mpr trivial) _)
      (.map ((sends_ask _).mpr trivial) _)
  | updateTransactionStatus args =>
    exact .of_spared env container (.map ((sends_ask _).mpr trivial) _)
      (.map ((sends_ask _).mpr trivial) _)
  | process payload =>
    have h := StkCallbackHandler.sends_process env.toRuntime payload
    exact .of_callback env container (.map (h.mono fun _ => Msg.OfHandler.ofCallback) _)
  | postCallback request =>
    exact .of_callback env container
      (.map (container.callbackRoute.sends_post env.toRuntime request) _)
  | generateReceipt checkoutRequestId =>
    exact .of_reading env container (.map (ReceiptService.sends_generateReceipt checkoutRequestId) _)
  | generateReceiptByReference reference =>
    exact .of_reading env container
      (.map (ReceiptService.sends_generateReceiptByReference reference) _)
  | getTodaySummary =>
    exact .of_reading env container (.map AnalyticsService.sends_getTodaySummary _)
  | getFailedTransactions =>
    exact .of_reading env container (.map AnalyticsService.sends_getFailedTransactions _)
  | runReconciliation =>
    exact .of_reading env container (.map container.reconciliationService.sends_runReconciliation _)

/-! ## What every stored request keeps -/

/-- Every stored request is as `I` says. -/
def Stored (I : ApprovalRequest → Prop) (approvals : Approvals) : Prop :=
  ∀ approvalId a, approvals.get approvalId = some a → I a

/-- `I` is kept by a change of status, and by a first review of the operator. -/
structure KeptBy (operatorId : String) (I : ApprovalRequest → Prop) : Prop where
  withStatus : ∀ a status now, I a → I (a.withStatus status now)
  reviewedBy : ∀ a now, operatorId ∉ a.reviewerIds → I a → I (a.reviewedBy operatorId now)
  approvedBy : ∀ a now, operatorId ∉ a.reviewerIds → I a → I (a.approvedBy operatorId now)

namespace Stored

variable {env} {I : ApprovalRequest → Prop} {approvals : Approvals}

/-- A record that has the property may be stored. -/
theorem put (h : Stored I approvals) {a : ApprovalRequest} (ha : I a) : Stored I (approvals.put a) := by
  intro approvalId b hb
  rw [Keyed.get_put] at hb
  split at hb
  next =>
    cases hb
    exact ha
  next => exact h approvalId b hb

theorem expires (h : Stored I approvals)
    (withStatus : ∀ a status now, I a → I (a.withStatus status now)) {after : Approvals}
    (moves : MovesOnly (Expires env) approvals after) : Stored I after := by
  intro approvalId b hb
  rcases moves approvalId with hsame | ⟨a, c, ha, hc, -, k, -, rfl⟩
  · exact h approvalId b (hsame ▸ hb)
  · cases hc.symm.trans hb
    exact withStatus a _ _ (h approvalId a ha)

variable {operatorId : String} {w : World τ π} (env)

/-- An approval call keeps a property of the stored requests that a review by its operator, an expiry
and a change of status keep. -/
theorem approveRequest (kept : KeptBy operatorId I) (approvalId : String)
    (h : Stored I w.approvals) :
    Stored I (Prog.run (handle env container)
      (ApprovalService.approveRequest approvalId operatorId) w).2.approvals := by
  obtain ⟨response, w', hrun, hcase⟩ := review_cases env container approvalId operatorId w
  rw [hrun]
  cases hcase with
  | absent _ _ same => exact same ▸ h
  | refused _ _ _ _ same => exact same ▸ h
  | expired a stored _ _ _ put =>
    rw [put]
    exact h.put (kept.withStatus a _ _ (h approvalId a stored))
  | reviewed a stored _ _ unseen _ _ put =>
    rw [put]
    exact h.put (kept.reviewedBy a _ unseen (h approvalId a stored))
  | approved a stored _ _ unseen _ _ put =>
    rw [put]
    exact h.put (kept.approvedBy a _ unseen (h approvalId a stored))

/-- An execution keeps such a property too: the push that may follow the review writes no request. -/
theorem executeApprovedPayment (kept : KeptBy operatorId I) (approvalId : String)
    (h : Stored I w.approvals) :
    Stored I (Prog.run (handle env container)
      (PaymentService.executeApprovedPayment approvalId operatorId) w).2.approvals := by
  obtain ⟨output, w', hrun, hcase⟩ := execution_cases env container approvalId operatorId w
  rw [hrun]
  cases hcase with
  | absent _ _ same => exact same ▸ h
  | expired _ _ _ _ moves => exact h.expires kept.withStatus moves
  | refused _ _ _ _ same => exact same ▸ h
  | reviewed a stored _ _ unseen _ _ put =>
    rw [put]
    exact h.put (kept.reviewedBy a _ unseen (h approvalId a stored))
  | approved a stored _ _ unseen _ w₁ _ put _ paid =>
    have hsame := (run_executeApprovedStkPush env container a.payload w₁).1
    rw [paid, hsame, put]
    exact h.put (kept.approvedBy a _ unseen (h approvalId a stored))

theorem rejectRequest (withStatus : ∀ a status now, I a → I (a.withStatus status now))
    (approvalId : String) (h : Stored I w.approvals) :
    Stored I (Prog.run (handle env container)
      (ApprovalService.rejectRequest approvalId) w).2.approvals := by
  obtain ⟨response, w', hrun, hcase⟩ := reject_cases env container approvalId w
  rw [hrun]
  cases hcase with
  | absent _ _ same => exact same ▸ h
  | expired a stored _ _ _ put =>
    rw [put]
    exact h.put (withStatus a _ _ (h approvalId a stored))
  | rejected a stored now _ put =>
    rw [put]
    exact h.put (withStatus a _ _ (h approvalId a stored))

end Stored

end MpesaMcp
