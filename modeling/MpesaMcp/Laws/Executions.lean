import MpesaMcp.Laws.IdempotentPushes

/-!
# Which operations push, and what they answer

`execute_approved_payment` is a review followed by at most one push (`executeApprovedPayment_eq`).
`execution_cases` reads off it what a step does: it sends none of the messages of a push, or it is one
push, under the key of its operation, whose answer it hands on.
-/

set_option autoImplicit false

namespace MpesaMcp

open Library Python PaymentService

/-- A message that no push sends: no lookup of a key, no save, no call of `initiate_payment`. -/
def Msg.SparesPush : Msg → Prop
  | .transactions (.findByIdempotencyKey _) => False
  | .transactions (.savePendingTransaction _) => False
  | .provider (.initiatePayment _) => False
  | _ => True

theorem Msg.OfApprovals.sparesPush {m : Msg} (h : m.OfApprovals) : m.SparesPush := by
  cases m <;> trivial

theorem Msg.OfCallback.sparesPush {m : Msg} (h : m.OfCallback) : m.SparesPush := by
  cases m with
  | transactions m => cases m <;> trivial
  | _ => trivial

theorem Msg.OfReading.sparesPush {m : Msg} (h : m.OfReading) : m.SparesPush := by
  cases m with
  | transactions m => cases m <;> trivial
  | provider m => cases m <;> trivial
  | _ => trivial

/-! ## The review before a payment -/

/-- What `execute_approved_payment` does before it pays: it ends with an answer, or with the review that
completed the request. -/
def reviewForExecution (approvalId operatorId : String) :
    App (ApprovalExecutionResponse ⊕ ApprovalServiceResponse × ApprovalRequest) := do
  match ← ApprovalService.getApprovalRequest approvalId with
  | none =>
    pure (.inl {
      status := .notFound
      allowed := false
      reason := "Approval request was not found." })
  | some approval =>
    if ← ApprovalService.isExpired approval then
      let _ ← ApprovalService.expireStaleApprovals
      let expiredApproval ← ApprovalService.getApprovalRequest approvalId
      pure (.inl {
        status := .expired
        allowed := false
        reason := "Approval request has expired."
        approval := some (expiredApproval.getD approval) })
    else if approval.status ≠ .pending then
      pure (.inl {
        status := .blocked
        allowed := false
        reason := "Approval request is not pending."
        approval := some approval })
    else do
      let response ← ApprovalService.approveRequest approvalId operatorId
      match response.approval with
      | none =>
        pure (.inl {
          status := .notFound
          allowed := false
          reason := "Approval request was not found." })
      | some approved =>
        if response.status ≠ .approved then pure (.inl (deferred response approved))
        else pure (.inr (response, approved))

/-- The payment behind a completing review. -/
def payReviewed : ApprovalExecutionResponse ⊕ ApprovalServiceResponse × ApprovalRequest →
    App ApprovalExecutionResponse
  | .inl response => pure response
  | .inr (response, approved) =>
    executed response approved <$> executeApprovedStkPush approved.payload

/-- An execution is a review and a payment on what the review returned; the proofs take the two apart
here. -/
theorem executeApprovedPayment_eq (approvalId operatorId : String) :
    executeApprovedPayment approvalId operatorId =
      reviewForExecution approvalId operatorId >>= payReviewed := by
  unfold executeApprovedPayment reviewForExecution
  rw [Prog.bind_assoc]
  congr 1
  funext found
  cases found with
  | none => rfl
  | some approval =>
    dsimp only
    rw [Prog.bind_assoc]
    congr 1
    funext expired
    cases expired with
    | true =>
      simp only [if_true, Prog.bind_assoc]
      rfl
    | false =>
      by_cases hpending : approval.status = .pending
      · simp only [hpending, ne_eq, not_true_eq_false, if_false, Bool.false_eq_true]
        unfold reviewAndExecute
        rw [Prog.bind_assoc]
        congr 1
        funext response
        cases response.approval with
        | none => rfl
        | some approved =>
          dsimp only
          split <;> rfl
      · simp only [hpending, ne_eq, not_false_eq_true, if_true, Bool.false_eq_true, if_false]
        rfl

/-- The review for an execution is the business of the approval service. -/
theorem sends_reviewForExecution (approvalId operatorId : String) :
    (reviewForExecution approvalId operatorId).Sends Msg.OfApprovals := by
  refine .bind ((sends_ask _).mpr trivial) fun found => ?_
  cases found with
  | none => trivial
  | some approval =>
    refine .bind (ApprovalService.sends_isExpired approval) fun expired => ?_
    split
    · exact .bind ApprovalService.sends_expireStaleApprovals fun _ =>
        .bind ((sends_ask _).mpr trivial) fun _ => trivial
    · split
      · trivial
      · refine .bind (ApprovalService.sends_approveRequest _ _) fun response => ?_
        split
        · trivial
        · split <;> trivial

section Review

variable {τ π : Type} (env : Env) (container : AppContainer τ π)

/-- How the review of an `execute_approved_payment` ends. -/
inductive ReviewEnd (w : World τ π) (approvalId operatorId : String) :
    ApprovalExecutionResponse ⊕ ApprovalServiceResponse × ApprovalRequest → World τ π → Prop
  | answered (response : ApprovalExecutionResponse) (w₁ : World τ π)
      (unpaid : response.payment = none) (incomplete : response.status ≠ .approved) :
      ReviewEnd w approvalId operatorId (.inl response) w₁
  | completed (a : ApprovalRequest) (stored : w.approvals.get approvalId = some a)
      (pending : a.status = .pending) (unseen : operatorId ∉ a.reviewerIds)
      (enough : a.requiredReviewers ≤ (a.reviewerIds.length : Int) + 1)
      (response : ApprovalServiceResponse) (approved : response.status = .approved) (now : Datetime)
      (w₁ : World τ π) (put : w₁.approvals = w.approvals.put (a.approvedBy operatorId now)) :
      ReviewEnd w approvalId operatorId (.inr (response, a.approvedBy operatorId now)) w₁

/-- The review never raises, and pays nothing: it hands on the request that it approved, or the answer
about one that it did not. -/
theorem reviewForExecution_cases (approvalId operatorId : String) (w : World τ π) :
    ∃ reviewed w₁, Prog.run (handle env container) (reviewForExecution approvalId operatorId) w =
        (.ok reviewed, w₁) ∧ ReviewEnd w approvalId operatorId reviewed w₁ := by
  have lookup : ∀ v : World τ π, Prog.run (handle env container)
      (ApprovalService.getApprovalRequest approvalId) v = (.ok (v.approvals.get approvalId), v) :=
    fun v => rfl
  unfold reviewForExecution
  simp only [Prog.run_bind, lookup]
  cases hget : w.approvals.get approvalId with
  | none => exact ⟨_, w, rfl, .answered _ w rfl nofun⟩
  | some a =>
    by_cases hpending : a.status = .pending
    case neg =>
      simp only [run_isExpired_decided env container hpending, hpending, Prog.run_bind, ne_eq,
        not_false_eq_true, if_true, Bool.false_eq_true, if_false]
      exact ⟨_, w, rfl, .answered _ w rfl nofun⟩
    case pos =>
      simp only [run_isExpired_pending env container hpending, Prog.run_bind]
      by_cases hdue : a.expiresAt ≤ env.clock w.ambient.clockReads
      · obtain ⟨count, w₁, hrun, -⟩ := run_expireStaleApprovals env container (w.readClock env)
        simp only [hdue, decide_true, if_true, Prog.run_bind, hrun, lookup]
        exact ⟨_, w₁, rfl, .answered _ w₁ rfl nofun⟩
      · obtain ⟨response, w₁, hrun, hcase⟩ := review_cases env container approvalId operatorId
          (w.readClock env)
        simp only [hdue, decide_false, Bool.false_eq_true, if_false, hpending, ne_eq,
          not_true_eq_false, Prog.run_bind, hrun]
        cases hcase with
        | absent missing => cases missing.symm.trans hget
        | refused b _ _ answer =>
          simp only [answer.2, answer.1]
          exact ⟨_, w₁, rfl, .answered _ w₁ rfl (by simp [deferred, answer.1])⟩
        | expired b _ _ _ answer =>
          simp only [answer.2, answer.1]
          exact ⟨_, w₁, rfl, .answered _ w₁ rfl (by simp [deferred, answer.1])⟩
        | reviewed b _ _ _ _ _ answer =>
          simp only [answer.2, answer.1]
          exact ⟨_, w₁, rfl, .answered _ w₁ rfl (by simp [deferred, answer.1])⟩
        | approved b stored pending _ unseen enough answer put =>
          simp only [answer.2, answer.1]
          exact ⟨_, w₁, rfl,
            .completed (w := w) b stored pending unseen enough response answer.1 _ w₁ put⟩

/-- The payment that a completed request names. -/
theorem payReviewed_of_named {a : ApprovalRequest} {request : InitiatePayment} {idempotencyKey : String}
    (named : executablePayload a.payload = some (request, idempotencyKey))
    (response : ApprovalServiceResponse) (operatorId : String) (now : Datetime) :
    payReviewed (.inr (response, a.approvedBy operatorId now)) =
      executed response (a.approvedBy operatorId now) <$> executeStkPush request idempotencyKey := by
  show executed response (a.approvedBy operatorId now) <$> executeApprovedStkPush a.payload = _
  rw [executeApprovedStkPush, named]

/-- Behind the review, a step is its payment. -/
theorem step_of_review {approvalId operatorId : String} {w w₁ : World τ π}
    {reviewed : ApprovalExecutionResponse ⊕ ApprovalServiceResponse × ApprovalRequest}
    (run : Prog.run (handle env container) (reviewForExecution approvalId operatorId) w =
      (.ok reviewed, w₁)) :
    step env container (.executeApprovedPayment approvalId operatorId) w =
      ((Prog.run (handle env container) (payReviewed reviewed) w₁).1.map .execution,
        (Prog.run (handle env container) (payReviewed reviewed) w₁).2) := by
  simp only [step, program, executeApprovedPayment_eq, Prog.run_map, Prog.run_bind, run]

end Review

/-! ## The push of a step -/

/-- The payment response in a reply. -/
def Reply.payment? : Reply → Option PaymentResponse
  | .payment response => some response
  | .execution response => response.payment
  | _ => none

section Step

variable {τ π : Type} (env : Env) (container : AppContainer τ π)

/-- A step sends no message of a push, or it is one push from a world with the same transactions and
calls, and hands its answer on. -/
inductive ExecutionOf (op : Op) (w : World τ π) (output : Except Exn Reply) (w' : World τ π) : Prop
  | silent (observed : (program container env.toRuntime op).Observes (handle env container)
      (fun m _ => m.SparesPush) w)
  | pushes (request : InitiatePayment) (idempotencyKey : String)
      (key : keyOf env.toRuntime op w = some idempotencyKey) (w₁ : World τ π) (idle : w.Idle w₁)
      (forward : w.ambient.Forward w₁.ambient) (wrap : PaymentResponse → Reply)
      (payment : ∀ response, (wrap response).payment? = some response)
      (answer : output = (Prog.run (handle env container) (executeStkPush request idempotencyKey)
        w₁).1.map wrap)
      (after : w' = (Prog.run (handle env container) (executeStkPush request idempotencyKey) w₁).2)
      (behind : ∀ P, (∀ m r, m.OfApprovals → P m r) →
        (executeStkPush request idempotencyKey).Observes (handle env container) P w₁ →
        (program container env.toRuntime op).Observes (handle env container) P w)
      (within : ∀ P, (program container env.toRuntime op).Observes (handle env container) P w →
        (executeStkPush request idempotencyKey).Observes (handle env container) P w₁)

/-- An operation that sends no push executes nothing. -/
theorem ExecutionOf.of_sends {op : Op} {w : World τ π}
    (sends : (program container env.toRuntime op).Sends Msg.SparesPush) :
    ExecutionOf env container op w (step env container op w).1 (step env container op w).2 :=
  .silent (sends.observes (fun _ _ h => h) w)

/-- Filing a request takes the messages of the approval service, and a counter. -/
theorem sends_requireApproval {P : Msg → Prop} (approvals : ∀ m, m.OfApprovals → P m)
    (counts : ∀ counter, P (.increment counter)) (self : PaymentService) (decision : PolicyDecision)
    (request : InitiatePayment) (idempotencyKey : String) :
    (self.requireApproval decision request idempotencyKey).Sends P := by
  refine .bind ?_ fun approval => .bind ((sends_ask _).mpr (counts _)) fun _ => trivial
  refine .bind ((sends_ask _).mpr (approvals _ trivial)) fun createdAt => ?_
  cases Datetime.addMinutes createdAt self.approvalService.expiryMinutes with
  | none => trivial
  | some expiresAt =>
    exact .bind ((sends_ask _).mpr (approvals _ trivial)) fun _ =>
      .bind ((sends_ask _).mpr (approvals _ trivial)) fun _ => trivial

/-- An initiation executes the push it was asked for, where the rules let it through without an
approval. -/
theorem execution_initiateStkPush (args : InitiateStkPush) (w : World τ π) :
    let op := Op.initiateStkPush args
    ExecutionOf env container op w (step env container op w).1 (step env container op w).2 := by
  intro op
  have hprogram := initiation_program env container args
  generalize hp : container.paymentService.initiateStkPush env.toRuntime args = p at hprogram
  cases hprogram with
  | pays request requested positive within =>
    refine .pushes request (keyFor env.toRuntime args request) ?_ w ⟨rfl, rfl⟩ (.refl _) .payment
      (fun _ => rfl) ?_ ?_ (fun P _ hpush => ?_) fun P hobserved => ?_
    · simp only [op, keyOf, requested, Option.map_some]
    · simp only [op, step, program, Prog.run_map, hp]
    · simp only [op, step, program, Prog.run_map, hp]
    · simpa only [op, program, Prog.observes_map, hp] using hpush
    · simpa only [op, program, Prog.observes_map, hp] using hobserved
  | files decision request =>
    refine .of_sends env container (.map ?_ _)
    rw [hp]
    exact sends_requireApproval (fun _ => Msg.OfApprovals.sparesPush) (fun _ => trivial) _ _ _ _
  | refuses response =>
    refine .of_sends env container (.map ?_ _)
    rw [hp]
    trivial

/-- An execution pushes what the payload of the approved request says, under the key that stands in it. -/
theorem execution_executeApprovedPayment (approvalId operatorId : String) (w : World τ π) :
    let op := Op.executeApprovedPayment approvalId operatorId
    ExecutionOf env container op w (step env container op w).1 (step env container op w).2 := by
  intro op
  obtain ⟨reviewed, w₁, hrun, hend⟩ := reviewForExecution_cases env container approvalId operatorId w
  have hsends := sends_reviewForExecution approvalId operatorId
  have hidle : w.Idle w₁ := by
    have h := run_idle env container hsends w
    rwa [hrun] at h
  have hforward : w.ambient.Forward w₁.ambient := by
    have h := run_forward env container (reviewForExecution approvalId operatorId) w
    rwa [hrun] at h
  have hprogram : program container env.toRuntime op =
      .execution <$> (reviewForExecution approvalId operatorId >>= payReviewed) :=
    congrArg (Reply.execution <$> ·) (executeApprovedPayment_eq approvalId operatorId)
  have hbehind : ∀ P, (∀ m r, Msg.OfApprovals m → P m r) →
      (payReviewed reviewed).Observes (handle env container) P w₁ →
      (program container env.toRuntime op).Observes (handle env container) P w := by
    intro P happrovals hpaid
    rw [hprogram, Prog.observes_map, Prog.observes_bind, hrun]
    refine ⟨hsends.observes (fun m r h => happrovals m r h) w, fun other hother => ?_⟩
    cases hother
    exact hpaid
  have hsilent : (payReviewed reviewed).Observes (handle env container)
      (fun m _ => m.SparesPush) w₁ → ExecutionOf env container op w (step env container op w).1
        (step env container op w).2 :=
    fun h => .silent (hbehind _ (fun _ _ => Msg.OfApprovals.sparesPush) h)
  cases hend with
  | answered response _ unpaid incomplete => exact hsilent trivial
  | completed a stored pending unseen enough response approved now _ put =>
    cases hnamed : executablePayload a.payload with
    | none =>
      refine hsilent ?_
      show (executed response (a.approvedBy operatorId now) <$>
        executeApprovedStkPush a.payload).Observes _ _ _
      rw [executeApprovedStkPush, hnamed]
      trivial
    | some named =>
      obtain ⟨request, idempotencyKey⟩ := named
      have hpaid := payReviewed_of_named hnamed response operatorId now
      have hstep : step env container op w =
          ((Prog.run (handle env container) (executeStkPush request idempotencyKey) w₁).1.map
              fun payment => .execution (executed response (a.approvedBy operatorId now) payment),
            (Prog.run (handle env container) (executeStkPush request idempotencyKey) w₁).2) := by
        rw [step_of_review env container hrun, hpaid, Prog.run_map]
        cases (Prog.run (handle env container) (executeStkPush request idempotencyKey) w₁).1 <;> rfl
      refine .pushes request idempotencyKey ?_ w₁ hidle hforward _ (fun _ => rfl)
        (congrArg Prod.fst hstep) (congrArg Prod.snd hstep) (fun P happrovals hpush => ?_)
        fun P hobserved => ?_
      · simp only [op, keyOf, stored, hnamed, Option.bind_eq_bind, Option.bind_some]
      · refine hbehind P happrovals ?_
        rw [hpaid, Prog.observes_map]
        exact hpush
      · rw [hprogram, Prog.observes_map, Prog.observes_bind, hrun] at hobserved
        have hpushed := hobserved.2 _ rfl
        rwa [hpaid, Prog.observes_map] at hpushed

/-- **Which operations push**: a direct call and an approved one, and nothing else but a direct save
sends the messages of a push. -/
theorem execution_of (op : Op) (indirect : ∀ args, op ≠ .savePendingTransaction args)
    (w : World τ π) :
    ExecutionOf env container op w (step env container op w).1 (step env container op w).2 := by
  cases opKind container env.toRuntime op with
  | initiates args => exact execution_initiateStkPush env container args w
  | executes approvalId operatorId =>
    exact execution_executeApprovedPayment env container approvalId operatorId w
  | saves args => exact absurd rfl (indirect args)
  | updates args => exact .of_sends env container (.bind ((sends_ask _).mpr trivial) fun _ => trivial)
  | handles payload =>
    exact .of_sends env container (.map ((StkCallbackHandler.sends_process _ payload).mono
      fun _ h => h.ofCallback.sparesPush) _)
  | posts request =>
    exact .of_sends env container (.map ((container.callbackRoute.sends_post _ request).mono
      fun _ => Msg.OfCallback.sparesPush) _)
  | reviews sends => exact .of_sends env container (sends.mono fun _ => Msg.OfApprovals.sparesPush)
  | reads sends => exact .of_sends env container (sends.mono fun _ => Msg.OfReading.sparesPush)

end Step

end MpesaMcp
