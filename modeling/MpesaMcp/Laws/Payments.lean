import MpesaMcp.Laws.Approvals

/-!
# What the payment service does to requests and calls

`execution_cases` says what one `execute_approved_payment` does: it pays only behind the review that
turns the request from pending to approved. `initiation_cases` says what one `initiate_stk_push`
does: it pays, files a request, or changes nothing.
-/

set_option autoImplicit false

namespace MpesaMcp

open Library Python

variable {τ π : Type} (env : Env) (container : AppContainer τ π)

/-! ## Executing an approval -/

/-- What one `execute_approved_payment` answers and does. -/
inductive ExecutionCase (w : World τ π) (approvalId operatorId : String)
    (output : Except Exn ApprovalExecutionResponse) (w' : World τ π) : Prop
  | absent (missing : w.approvals.get approvalId = none)
      (answer : ∃ response, output = .ok response ∧ response.status = .notFound)
      (same : w'.approvals = w.approvals) (idle : w.Idle w')
  | expired (a : ApprovalRequest) (stored : w.approvals.get approvalId = some a)
      (pending : a.status = .pending)
      (answer : ∃ response, output = .ok response ∧ response.status = .expired)
      (moves : MovesOnly (Expires env) w.approvals w'.approvals) (idle : w.Idle w')
  | refused (a : ApprovalRequest) (stored : w.approvals.get approvalId = some a)
      (cause : a.status ≠ .pending ∨ operatorId ∈ a.reviewerIds)
      (answer : ∃ response, output = .ok response ∧ response.status = .blocked)
      (same : w'.approvals = w.approvals) (idle : w.Idle w')
  | reviewed (a : ApprovalRequest) (stored : w.approvals.get approvalId = some a)
      (pending : a.status = .pending)
      (early : env.clock (w.ambient.clockReads + 1) < a.expiresAt)
      (unseen : operatorId ∉ a.reviewerIds)
      (short : (a.reviewerIds.length : Int) + 1 < a.requiredReviewers)
      (answer : ∃ response, output = .ok response ∧ response.status = .partiallyApproved)
      (put : w'.approvals = w.approvals.put
        (a.reviewedBy operatorId (env.clock (w.ambient.clockReads + 2)))) (idle : w.Idle w')
  /-- The review completed the request; `w₁` is the world in which the payment starts. -/
  | approved (a : ApprovalRequest) (stored : w.approvals.get approvalId = some a)
      (pending : a.status = .pending)
      (early : env.clock (w.ambient.clockReads + 1) < a.expiresAt)
      (unseen : operatorId ∉ a.reviewerIds)
      (enough : a.requiredReviewers ≤ (a.reviewerIds.length : Int) + 1)
      (w₁ : World τ π) (reads : w₁.ambient.clockReads = w.ambient.clockReads + 3)
      (put : w₁.approvals = w.approvals.put
        (a.approvedBy operatorId (env.clock (w.ambient.clockReads + 2)))) (idle : w.Idle w₁)
      (paid : w' = (Prog.run (handle env container)
        (PaymentService.executeApprovedStkPush a.payload) w₁).2)
      (answer : ∀ response, output = .ok response → response.status = .approved)
      (raised : ∀ e, output = .error e → (Prog.run (handle env container)
        (PaymentService.executeApprovedStkPush a.payload) w₁).1 = .error e)
      (forward : w.ambient.Forward w₁.ambient)
      (observed : ∀ P, (PaymentService.executeApprovedPayment approvalId operatorId).Observes
        (handle env container) P w → (PaymentService.executeApprovedStkPush a.payload).Observes
          (handle env container) P w₁)

/-- The part of `execute_approved_payment` after its own checks: the review answers for itself unless
it approves, and then the payload it approved is pushed. -/
theorem run_reviewAndExecute {approvalId : String} (operatorId : String) {a : ApprovalRequest}
    {w : World τ π} (stored : w.approvals.get approvalId = some a)
    (behind : ∀ P, (PaymentService.executeApprovedPayment approvalId operatorId).Observes
      (handle env container) P w → (PaymentService.reviewAndExecute approvalId operatorId).Observes
        (handle env container) P (w.readClock env)) :
    ∃ output w', Prog.run (handle env container)
        (PaymentService.reviewAndExecute approvalId operatorId) (w.readClock env) = (output, w') ∧
      ExecutionCase env container w approvalId operatorId output w' := by
  obtain ⟨response, w₁, hrun, hcase⟩ := review_cases env container approvalId operatorId
    (w.readClock env)
  have hidle : w.Idle w₁ := by
    have h := run_idle env container (ApprovalService.sends_approveRequest approvalId operatorId)
      (w.readClock env)
    rw [hrun] at h
    exact h
  have hforward : w.ambient.Forward w₁.ambient := by
    have h := run_forward env container (ApprovalService.approveRequest approvalId operatorId)
      (w.readClock env)
    rw [hrun] at h
    exact (Ambient.forward_now env w.ambient).trans h
  simp only [PaymentService.reviewAndExecute, Prog.run_bind, hrun]
  cases hcase with
  | absent missing => exact absurd (missing.symm.trans stored) (by simp)
  | refused b hb cause answer same =>
    obtain ⟨hstatus, happroval⟩ := answer
    refine ⟨.ok (PaymentService.deferred response b), w₁, ?_,
      .refused b hb cause ⟨_, rfl, hstatus⟩ same hidle⟩
    simp [happroval, hstatus]
  | expired b hb pending due answer put =>
    obtain ⟨hstatus, happroval⟩ := answer
    have hmoves : MovesOnly (Expires env) w.approvals w₁.approvals := by
      rw [put]
      exact .of_put hb (ApprovalRequest.approvalId_withStatus _ _ _) ⟨pending, _, due, rfl⟩
    obtain ⟨c, hc⟩ : ∃ c, response.approval = some c := ⟨_, happroval⟩
    refine ⟨.ok (PaymentService.deferred response c), w₁, ?_,
      .expired b hb pending ⟨_, rfl, hstatus⟩ hmoves hidle⟩
    simp [hc, hstatus]
  | reviewed b hb pending early unseen short answer put =>
    obtain ⟨hstatus, happroval⟩ := answer
    obtain ⟨c, hc⟩ : ∃ c, response.approval = some c := ⟨_, happroval⟩
    refine ⟨.ok (PaymentService.deferred response c), w₁, ?_,
      .reviewed b hb pending early unseen short ⟨_, rfl, hstatus⟩ put hidle⟩
    simp [hc, hstatus]
  | approved b hb pending early unseen enough answer put reads =>
    obtain ⟨hstatus, happroval⟩ := answer
    obtain ⟨c, hc, hpayload⟩ : ∃ c, response.approval = some c ∧ c.payload = b.payload :=
      ⟨_, happroval, rfl⟩
    cases hpaid : Prog.run (handle env container)
        (PaymentService.executeApprovedStkPush b.payload) w₁ with
    | mk payment w' =>
    refine ⟨payment.map (PaymentService.executed response c), w', ?_,
      .approved b hb pending early unseen enough w₁ (by rw [reads]; rfl) put hidle
        (by rw [hpaid]) ?_ ?_ hforward fun P hP => ?_⟩
    · simp [hc, hstatus, hpayload, hpaid]
      cases payment <;> rfl
    · intro r hr
      cases payment with
      | error e => cases hr
      | ok payment =>
        cases hr
        exact hstatus
    · intro e he
      rw [hpaid]
      cases payment with
      | error e' =>
        cases he
        rfl
      | ok payment => cases he
    · have hreview := behind P hP
      simp only [PaymentService.reviewAndExecute, Prog.observes_bind] at hreview
      have hpayment := hreview.2 response (by rw [hrun])
      rw [hrun, hc] at hpayment
      simp only [hstatus, ne_eq, not_true_eq_false, if_false, Prog.observes_bind, hpayload]
        at hpayment
      exact hpayment.1

/-- `execute_approved_payment` does what one of the cases says. The approved case keeps the world
between the review and the push, so that what holds of pushes can be used of executions. -/
theorem execution_cases (approvalId operatorId : String) (w : World τ π) :
    ∃ output w', Prog.run (handle env container)
        (PaymentService.executeApprovedPayment approvalId operatorId) w = (output, w') ∧
      ExecutionCase env container w approvalId operatorId output w' := by
  have lookup : ∀ v : World τ π, Prog.run (handle env container)
      (ApprovalService.getApprovalRequest approvalId) v = (.ok (v.approvals.get approvalId), v) :=
    fun v => rfl
  cases hget : w.approvals.get approvalId with
  | none =>
    refine ⟨.ok ⟨.notFound, false, "Approval request was not found.", none, none⟩, w, ?_,
      .absent hget ⟨_, rfl, rfl⟩ rfl ⟨rfl, rfl⟩⟩
    simp [PaymentService.executeApprovedPayment, lookup, hget]
  | some a =>
    by_cases hp : a.status = .pending
    case neg =>
      refine ⟨.ok ⟨.blocked, false, "Approval request is not pending.", some a, none⟩, w, ?_,
        .refused a hget (Or.inl hp) ⟨_, rfl, rfl⟩ rfl ⟨rfl, rfl⟩⟩
      simp [PaymentService.executeApprovedPayment, lookup, hget,
        run_isExpired_decided env container hp, hp]
    case pos =>
      by_cases hdue : a.expiresAt ≤ env.clock w.ambient.clockReads
      · obtain ⟨count, w', hrun, hmoves⟩ := run_expireStaleApprovals env container
          (w.readClock env)
        have hidle : w.Idle w' := by
          have h := run_idle env container ApprovalService.sends_expireStaleApprovals
            (w.readClock env)
          rw [hrun] at h
          exact h
        refine ⟨.ok ⟨.expired, false, "Approval request has expired.",
          some ((w'.approvals.get approvalId).getD a), none⟩, w', ?_,
          .expired a hget hp ⟨_, rfl, rfl⟩ hmoves hidle⟩
        simp [PaymentService.executeApprovedPayment, lookup, hget,
          run_isExpired_pending env container hp, hdue, hrun]
      · have htest := run_isExpired_pending env container hp w
        rw [decide_eq_false hdue] at htest
        obtain ⟨output, w', hrun, hcase⟩ := run_reviewAndExecute env container operatorId hget
          (by
            intro P hP
            simp only [PaymentService.executeApprovedPayment, Prog.observes_bind] at hP
            have hfound := hP.2 (some a) (by rw [lookup, hget])
            rw [lookup] at hfound
            simp only [Prog.observes_bind] at hfound
            have hopen := hfound.2 false (by rw [htest])
            rw [htest] at hopen
            simpa only [hp, ne_eq, not_true_eq_false, if_false, Bool.false_eq_true] using hopen)
        refine ⟨output, w', ?_, hcase⟩
        simp [PaymentService.executeApprovedPayment, lookup, hget,
          run_isExpired_pending env container hp, hdue, hp, hrun]

/-! ## Initiating a payment -/

/-- What one `initiate_stk_push` answers and does. -/
inductive InitiationCase (w : World τ π) (args : InitiateStkPush)
    (output : Except Exn PaymentResponse) (w' : World τ π) : Prop
  | quiet (same : w'.approvals = w.approvals) (idle : w.Idle w')
  | filed (request : InitiatePayment) (requested : PaymentService.requestedPayment args = some request)
      (positive : 0 < request.amount) (above : container.settings.maxStkAmount < request.amount)
      (approval : ApprovalRequest)
      (drawn : approval.approvalId = env.uuid4 w.ambient.uuidDraws)
      (payload : approval.payload = PaymentService.approvalPayload request
        (PaymentService.keyFor env.toRuntime args request))
      (blank : approval.status = .pending ∧ approval.reviewerIds = [])
      (answer : ∃ response, output = .ok response ∧
        response.approvalId = some approval.approvalId)
      (put : w'.approvals = w.approvals.put approval) (idle : w.Idle w')
      (draws : w'.ambient.uuidDraws = w.ambient.uuidDraws + 1)
  | paid (request : InitiatePayment) (requested : PaymentService.requestedPayment args = some request)
      (positive : 0 < request.amount) (within : request.amount ≤ container.settings.maxStkAmount)
      (ran : Prog.run (handle env container) (PaymentService.executeStkPush request
        (PaymentService.keyFor env.toRuntime args request)) w = (output, w'))
      (program : container.paymentService.initiateStkPush env.toRuntime args =
        PaymentService.executeStkPush request (PaymentService.keyFor env.toRuntime args request))

/-- A call names a payment exactly where it names a phone number and an amount. -/
theorem requestedPayment_amount {args : InitiateStkPush} {request : InitiatePayment}
    (h : PaymentService.requestedPayment args = some request) :
    args.amount = some request.amount ∧ args.phoneNumber = some request.phoneNumber := by
  unfold PaymentService.requestedPayment at h
  cases hp : args.phoneNumber with
  | none => simp [hp] at h
  | some phone =>
    cases ha : args.amount with
    | none => simp [hp, ha] at h
    | some amount =>
      simp only [hp, ha, Option.bind_eq_bind, Option.bind_some, Option.some.injEq] at h
      subst h
      exact ⟨rfl, rfl⟩

/-- The branch that files a request: the payload holds every argument and the resolved key, so that an
approval executes what was asked for. -/
theorem run_requireApproval {args : InitiateStkPush} {request : InitiatePayment}
    (requested : PaymentService.requestedPayment args = some request)
    (positive : 0 < request.amount) (above : container.settings.maxStkAmount < request.amount)
    (decision : PolicyDecision) (w : World τ π) :
    ∃ output w', Prog.run (handle env container) (container.paymentService.requireApproval decision
        request (PaymentService.keyFor env.toRuntime args request)) w = (output, w') ∧
      InitiationCase env container w args output w' := by
  simp only [PaymentService.requireApproval, ApprovalService.createApprovalRequest, Prog.run_bind,
    run_ask, handle_now]
  cases hadd : Datetime.addMinutes (env.clock w.ambient.clockReads)
      container.paymentService.approvalService.expiryMinutes with
  | none => exact ⟨_, w.readClock env, rfl, .quiet rfl ⟨rfl, rfl⟩⟩
  | some expiresAt =>
    simp only [Prog.run_bind, run_ask, handle, InMemoryApprovalRepository.answer,
      InMemoryApprovalRepository.create, ApprovalService.logAuditEvent, Prog.run_pure]
    exact ⟨_, _, rfl, .filed request requested positive above _ rfl rfl ⟨rfl, rfl⟩ ⟨_, rfl, rfl⟩
      rfl ⟨rfl, rfl⟩ rfl⟩

/-- The programs that an `initiate_stk_push` can be. -/
inductive InitiationProgram (args : InitiateStkPush) : App PaymentResponse → Prop
  | pays (request : InitiatePayment) (requested : PaymentService.requestedPayment args = some request)
      (positive : 0 < request.amount) (within : request.amount ≤ container.settings.maxStkAmount) :
      InitiationProgram args (PaymentService.executeStkPush request
        (PaymentService.keyFor env.toRuntime args request))
  | files (decision : PolicyDecision) (request : InitiatePayment)
      (requested : PaymentService.requestedPayment args = some request) (positive : 0 < request.amount)
      (above : container.settings.maxStkAmount < request.amount) :
      InitiationProgram args (container.paymentService.requireApproval decision request
        (PaymentService.keyFor env.toRuntime args request))
  | refuses (response : PaymentResponse) (unnamed : response.transactionId = none)
      (unpaid : ∀ request, PaymentService.requestedPayment args = some request → request.amount ≤ 0) :
      InitiationProgram args (pure response)

/-- The policy decides which program an `initiate_stk_push` is. -/
theorem initiation_program (args : InitiateStkPush) : InitiationProgram env container args
    (container.paymentService.initiateStkPush env.toRuntime args) := by
  unfold PaymentService.initiateStkPush
  dsimp only
  rw [PaymentPolicy.evaluate_initiateStkPush _ _ rfl]
  split
  next happroval =>
    obtain ⟨amount, phone, ha, hp, h0, hmax⟩ :=
      PaymentPolicy.evaluateStkPush_requiresApproval.mp happroval
    cases hreq : PaymentService.requestedPayment args with
    | none => exact .refuses _ rfl fun request h => by cases hreq.symm.trans h
    | some request =>
      cases (requestedPayment_amount hreq).1.symm.trans ha
      exact .files _ request hreq h0 hmax
  next hdirect =>
    split
    next hblocked =>
      refine .refuses _ rfl fun request hreq => ?_
      obtain ⟨hamount, hphone⟩ := requestedPayment_amount hreq
      by_contra hpositive
      rcases le_or_gt request.amount container.settings.maxStkAmount with hwithin | habove
      · rw [PaymentPolicy.evaluateStkPush_allowed.mpr
          ⟨_, _, hamount, hphone, Int.not_le.mp hpositive, hwithin⟩] at hblocked
        cases hblocked
      · exact hdirect (PaymentPolicy.evaluateStkPush_requiresApproval.mpr
          ⟨_, _, hamount, hphone, Int.not_le.mp hpositive, habove⟩)
    next hallowed =>
      simp only [Bool.not_eq_true', Bool.not_eq_false] at hallowed
      obtain ⟨amount, phone, ha, hp, h0, hmax⟩ :=
        PaymentPolicy.evaluateStkPush_allowed.mp hallowed
      cases hreq : PaymentService.requestedPayment args with
      | none => exact .refuses _ rfl fun request h => by cases hreq.symm.trans h
      | some request =>
        cases (requestedPayment_amount hreq).1.symm.trans ha
        exact .pays request hreq h0 hmax

/-- A payment within the limit is pushed at once. -/
theorem initiateStkPush_within {args : InitiateStkPush} {request : InitiatePayment}
    (requested : PaymentService.requestedPayment args = some request)
    (positive : 0 < request.amount) (within : request.amount ≤ container.settings.maxStkAmount) :
    container.paymentService.initiateStkPush env.toRuntime args =
      PaymentService.executeStkPush request
        (PaymentService.keyFor env.toRuntime args request) := by
  have hprogram := initiation_program env container args
  generalize container.paymentService.initiateStkPush env.toRuntime args = p at hprogram ⊢
  cases hprogram with
  | pays request' requested' =>
    cases requested.symm.trans requested'
    rfl
  | files _ request' requested' _ above =>
    cases requested.symm.trans requested'
    omega
  | refuses _ _ unpaid =>
    have hamount := unpaid request requested
    omega

/-- `initiate_stk_push` does what one of the cases says: it answers and changes nothing, files a
request for approval, or pushes. -/
theorem initiation_cases (args : InitiateStkPush) (w : World τ π) :
    ∃ output w', Prog.run (handle env container)
        (container.paymentService.initiateStkPush env.toRuntime args) w = (output, w') ∧
      InitiationCase env container w args output w' := by
  have hprogram := initiation_program env container args
  generalize container.paymentService.initiateStkPush env.toRuntime args = p at hprogram ⊢
  cases hprogram with
  | pays request requested positive within =>
    exact ⟨_, _, rfl, .paid request requested positive within rfl
      (initiateStkPush_within env container requested positive within)⟩
  | files decision request requested positive above =>
    exact run_requireApproval env container requested positive above decision w
  | refuses response => exact ⟨_, w, rfl, .quiet rfl ⟨rfl, rfl⟩⟩

end MpesaMcp
