import MpesaMcp.Laws.McpClients
import MpesaMcp.Laws.ServerSteps

/-!
# What stored requests keep

`stored_step` is the rule for a property of single requests that a filing gives, a change of status
keeps, and a first review of the request by the operator keeps. A decided request stays as it was
decided, up to a later rejection (`decided_step`); the id of every stored request was drawn
(`drawn_step`). Each of the three holds of whatever the server has the application do.
-/

set_option autoImplicit false

namespace MpesaMcp

open Library Python

open ApprovalRequest (Move)

variable {τ π : Type} {env : Env} {container : AppContainer τ π}

/-! ## Properties of single requests -/

/-- The operation reviews the request for the operator. -/
def Op.ReviewOf (approvalId operatorId : String) (op : Op) : Prop :=
  op = .executeApprovedPayment approvalId operatorId ∨ op = .approveRequest approvalId operatorId

/-- `I` holds of every request that the service files, and is kept by a change of status and by a first
review that `reviews` allows. -/
structure KeptByReviews (service : ApprovalService) (reviews : String → String → Prop)
    (I : ApprovalRequest → Prop) : Prop where
  filed : ∀ (args : CreateApproval) (approvalId : String) (now : Datetime),
    args.requiredReviewers = service.requiredReviewersForPayload args.payload →
      I (args.record approvalId now)
  withStatus : ∀ a status now, I a → I (a.withStatus status now)
  reviewedBy : ∀ a operatorId now, reviews a.approvalId operatorId → operatorId ∉ a.reviewerIds →
    I a → I (a.reviewedBy operatorId now)
  approvedBy : ∀ a operatorId now, reviews a.approvalId operatorId → operatorId ∉ a.reviewerIds →
    I a → I (a.approvedBy operatorId now)

section Stored

variable {reviews : String → String → Prop} {I : ApprovalRequest → Prop}

/-- A message that files a request files one with the property, and the others leave the requests as
they were. -/
theorem stored_files {m : Msg} (kept : KeptByReviews container.approvalService reviews I)
    (hm : m.FilesUnder container.approvalService) {w : World τ π} (h : Stored I w.approvals) :
    Stored I (handle env container m w).2.approvals := by
  cases m with
  | approvals m =>
    cases m with
    | create args => exact Stored.put h (kept.filed args _ _ hm)
    | _ => exact absurd hm id
  | provider m =>
    rw [handle_approvals env container (m := .provider m) trivial w]
    exact h
  | _ => exact h

/-- An execution keeps a property that reviews by its operator, expiries and changes of status keep. -/
theorem stored_execute (kept : KeptByReviews container.approvalService reviews I)
    {approvalId operatorId : String} (may : reviews approvalId operatorId) {w : World τ π}
    (h : Stored I w.approvals) :
    Stored I (Prog.run (handle env container)
      (PaymentService.executeApprovedPayment approvalId operatorId) w).2.approvals := by
  obtain ⟨output, w', hrun, hcase⟩ := execution_cases env container approvalId operatorId w
  rw [hrun]
  cases hcase with
  | absent _ _ same => exact same ▸ h
  | expired _ _ _ _ moves => exact h.expires kept.withStatus moves
  | refused _ _ _ _ same => exact same ▸ h
  | reviewed a stored _ _ unseen _ _ put =>
    rw [put]
    exact h.put (kept.reviewedBy a _ _ (Keyed.key_of_get stored ▸ may) unseen (h approvalId a stored))
  | approved a stored _ _ unseen _ w₁ _ put _ paid =>
    have hsame := (run_executeApprovedStkPush env container a.payload w₁).1
    rw [paid, hsame, put]
    exact h.put (kept.approvedBy a _ _ (Keyed.key_of_get stored ▸ may) unseen (h approvalId a stored))

/-- An approval call keeps such a property as well. -/
theorem stored_approve (kept : KeptByReviews container.approvalService reviews I)
    {approvalId operatorId : String} (may : reviews approvalId operatorId) {w : World τ π}
    (h : Stored I w.approvals) :
    Stored I (Prog.run (handle env container)
      (ApprovalService.approveRequest approvalId operatorId) w).2.approvals := by
  obtain ⟨response, w', hrun, hcase⟩ := review_cases env container approvalId operatorId w
  rw [hrun]
  cases hcase with
  | absent _ _ same => exact same ▸ h
  | refused _ _ _ _ same => exact same ▸ h
  | expired a stored _ _ _ put =>
    rw [put]
    exact h.put (kept.withStatus a _ _ (h approvalId a stored))
  | reviewed a stored _ _ unseen _ _ put =>
    rw [put]
    exact h.put (kept.reviewedBy a _ _ (Keyed.key_of_get stored ▸ may) unseen (h approvalId a stored))
  | approved a stored _ _ unseen _ _ put =>
    rw [put]
    exact h.put (kept.approvedBy a _ _ (Keyed.key_of_get stored ▸ may) unseen (h approvalId a stored))

/-- **The step lemma of stored requests**: a property that holds of what is filed, and that reviews,
expiries and changes of status keep, is kept by every operation. -/
theorem stored_step (kept : KeptByReviews container.approvalService reviews I) (op : Op)
    (may : ∀ approvalId operatorId, op.ReviewOf approvalId operatorId → reviews approvalId operatorId)
    {w : World τ π} (h : Stored I w.approvals) :
    Stored I (step env container op w).2.approvals := by
  have spared : (program container env.toRuntime op).Sends Msg.SparesApprovals →
      Stored I (step env container op w).2.approvals := by
    intro sends
    have hsame : (step env container op w).2.approvals = w.approvals :=
      run_approvals env container sends w
    exact hsame ▸ h
  have reading : (program container env.toRuntime op).Sends Msg.OfReading →
      Stored I (step env container op w).2.approvals :=
    fun sends => spared (sends.mono fun _ => Msg.OfReading.sparesApprovals)
  cases op with
  | initiateStkPush args =>
    rw [step_after env container rfl rfl]
    refine Prog.run_kept (I := fun v : World τ π => Stored I v.approvals) ?_
      (files_initiateStkPush env.toRuntime container.paymentService args) h
    intro m hm v
    exact stored_files kept hm
  | executeApprovedPayment approvalId operatorId =>
    rw [step_after env container rfl rfl]
    exact stored_execute kept (may _ _ (Or.inl rfl)) h
  | approveRequest approvalId operatorId =>
    rw [step_after env container rfl rfl]
    exact stored_approve kept (may _ _ (Or.inr rfl)) h
  | rejectRequest approvalId =>
    rw [step_after env container rfl rfl]
    exact Stored.rejectRequest env container kept.withStatus approvalId h
  | expireStaleApprovals =>
    obtain ⟨count, w', hrun, hmoves⟩ := run_expireStaleApprovals env container w
    rw [step_after env container rfl hrun]
    exact h.expires kept.withStatus hmoves
  | listPendingRequests =>
    obtain ⟨approvals, w', hrun, hmoves⟩ := run_listPendingRequests env container w
    rw [step_after env container rfl hrun]
    exact h.expires kept.withStatus hmoves
  | savePendingTransaction args => exact spared (.map ((sends_ask _).mpr trivial) _)
  | updateTransactionStatus args => exact spared (.map ((sends_ask _).mpr trivial) _)
  | process payload =>
    exact spared (.map ((StkCallbackHandler.sends_process _ payload).mono
      fun _ hm => hm.ofCallback.sparesApprovals) _)
  | postCallback request =>
    exact spared (.map ((container.callbackRoute.sends_post _ request).mono
      fun _ => Msg.OfCallback.sparesApprovals) _)
  | generateReceipt checkoutRequestId =>
    exact reading (.map (ReceiptService.sends_generateReceipt checkoutRequestId) _)
  | generateReceiptByReference reference =>
    exact reading (.map (ReceiptService.sends_generateReceiptByReference reference) _)
  | getTodaySummary => exact reading (.map AnalyticsService.sends_getTodaySummary _)
  | getFailedTransactions => exact reading (.map AnalyticsService.sends_getFailedTransactions _)
  | runReconciliation =>
    exact reading (.map container.reconciliationService.sends_runReconciliation _)

/-- The rule for whatever the server has the application do. -/
theorem Drives.stored {does : Op → Prop} (kept : KeptByReviews container.approvalService reviews I)
    (may : ∀ approvalId operatorId op, does op → op.ReviewOf approvalId operatorId →
      reviews approvalId operatorId)
    {w w' : World τ π} (drives : Drives env container does w w') (h : Stored I w.approvals) :
    Stored I w'.approvals := by
  refine drives.kept (I := fun v : World τ π => Stored I v.approvals) ?_ ?_ ?_ h
  · intro v a _ hv
    exact hv
  · intro m v hm hv
    rw [handle_approvals_of_reads hm]
    exact hv
  · intro op hdoes v hv
    exact stored_step kept op (fun approvalId operatorId => may approvalId operatorId op hdoes) hv

end Stored

/-! ## The ids of stored requests -/

/-- The id of every stored request was drawn. -/
def AllDrawn (env : Env) (w : World τ π) : Prop :=
  ∀ approvalId a, w.approvals.get approvalId = some a → Drawn env w approvalId

/-- The next id drawn is not stored: those in the store were all drawn before, and no draw repeats. -/
theorem AllDrawn.fresh {w : World τ π} (h : AllDrawn env w) :
    w.approvals.get (env.uuid4 w.ambient.uuidDraws) = none := by
  cases hget : w.approvals.get (env.uuid4 w.ambient.uuidDraws) with
  | none => rfl
  | some a =>
    obtain ⟨n, hn, hid⟩ := h _ a hget
    have hsame := env.uuid4_injective hid
    omega

/-- One operation stores requests only under ids that it draws. -/
theorem drawn_step (op : Op) {w : World τ π} (h : AllDrawn env w) :
    AllDrawn env (step env container op w).2 := by
  have hforward := run_forward env container (program container env.toRuntime op) w
  have old : ∀ approvalId a, w.approvals.get approvalId = some a →
      Drawn env (step env container op w).2 approvalId :=
    fun approvalId a ha => (h approvalId a ha).forward hforward
  intro approvalId b hb
  cases step_cases env container op w with
  | moved moves _ =>
    rcases moves approvalId with hsame | ⟨a, c, ha, -, -⟩
    · exact old approvalId b (hsame ▸ hb)
    · exact old approvalId a ha
  | filed _ _ _ _ _ _ approval drawn _ _ _ put _ draws =>
    rw [put, Keyed.get_put] at hb
    split at hb
    next hid => exact ⟨w.ambient.uuidDraws, by omega, hid.trans drawn⟩
    next => exact old approvalId b hb
  | paid _ _ _ _ _ _ same _ => exact old approvalId b (same ▸ hb)
  | executed id operatorId _ a ha _ _ _ _ _ put _ =>
    rw [put, Keyed.get_put] at hb
    split at hb
    next hid =>
      have hkey : a.approvalId = id := Keyed.key_of_get ha
      exact old approvalId a (hid.trans hkey ▸ ha)
    next => exact old approvalId b hb

/-- Whatever an input drives keeps the ids of the stored requests drawn, operation by operation. -/
theorem Drives.drawn {does : Op → Prop} {w w' : World τ π} (drives : Drives env container does w w')
    (h : AllDrawn env w) : AllDrawn env w' := by
  refine drives.kept (I := AllDrawn env) ?_ ?_ (fun op _ v => drawn_step op) h
  · intro v a forward hv approvalId b hb
    exact (hv approvalId b hb).forward forward
  · intro m v hm hv approvalId b hb
    rw [handle_approvals_of_reads hm] at hb
    exact (hv approvalId b hb).forward (handle_forward env container m v)

/-! ## Decided requests -/

/-- A decided request with the payload and the reviewers of this one is stored under its id. -/
def StillDecided (approvals : Approvals) (a : ApprovalRequest) : Prop :=
  ∃ b, approvals.get a.approvalId = some b ∧ b.status ≠ .pending ∧ b.payload = a.payload ∧
    b.reviewerIds = a.reviewerIds ∧ b.requiredReviewers = a.requiredReviewers

/-- A request that is stored and decided is still decided. -/
theorem StillDecided.of_stored {approvals : Approvals} {a : ApprovalRequest}
    (stored : approvals.get a.approvalId = some a) (decided : a.status ≠ .pending) :
    StillDecided approvals a :=
  ⟨a, stored, decided, rfl, rfl, rfl⟩

/-- **The step lemma of decided requests**: only a rejection moves one, and it keeps the reviewers and
the payload, so what was decided can be told from the request ever after. -/
theorem decided_step (op : Op) {w : World τ π} (drawn : AllDrawn env w) {a : ApprovalRequest}
    (h : StillDecided w.approvals a) : StillDecided (step env container op w).2.approvals a := by
  obtain ⟨b, hb, decided, hpayload, hreviewers, hrequired⟩ := h
  have unmoved : (step env container op w).2.approvals.get a.approvalId = some b →
      StillDecided (step env container op w).2.approvals a :=
    fun hstored => ⟨b, hstored, decided, hpayload, hreviewers, hrequired⟩
  cases step_cases env container op w with
  | moved moves _ =>
    rcases moves a.approvalId with hsame | ⟨b', c, hb', hc, ⟨k, move⟩, -⟩
    · exact unmoved (hsame.trans hb)
    · cases hb'.symm.trans hb
      obtain ⟨now, rfl⟩ := move.of_decided decided
      refine ⟨_, hc, by simp, ?_, ?_, ?_⟩
      · simpa using hpayload
      · simpa using hreviewers
      · simpa using hrequired
  | filed _ _ _ _ _ _ approval hdrawn _ _ _ put _ _ =>
    refine unmoved ?_
    rw [put, Keyed.get_put_of_ne, hb]
    intro hid
    rw [hid, hdrawn, drawn.fresh] at hb
    cases hb
  | paid _ _ _ _ _ _ same _ => exact unmoved (same ▸ hb)
  | executed id operatorId _ c hc pending _ _ _ _ put _ =>
    refine unmoved ?_
    have hkey : (c.approvedBy operatorId (env.clock (w.ambient.clockReads + 2))).approvalId = id :=
      Keyed.key_of_get (a := c) hc
    rw [put, Keyed.get_put_of_ne, hb]
    intro hid
    rw [hid, hkey, hc] at hb
    cases hb
    exact decided pending

/-- Whatever an input drives leaves a decided request decided, with its payload and its reviewers,
operation by operation. -/
theorem Drives.stillDecided {does : Op → Prop} {w w' : World τ π}
    (drives : Drives env container does w w') (drawn : AllDrawn env w) {a : ApprovalRequest}
    (h : StillDecided w.approvals a) : StillDecided w'.approvals a := by
  induction drives with
  | refl => exact h
  | @tail v v' before did ih =>
    have hdrawn : AllDrawn env v := Drives.drawn before drawn
    cases did with
    | clock forward => exact ih
    | reads sends =>
      refine Prog.run_kept (I := fun s : World τ π => StillDecided s.approvals a) ?_ sends ih
      intro m hm s hs
      rw [handle_approvals_of_reads hm]
      exact hs
    | takes _ => exact decided_step _ hdrawn ih

end MpesaMcp
