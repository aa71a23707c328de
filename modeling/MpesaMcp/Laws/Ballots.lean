import MpesaMcp.Laws.StoredRequests
import MpesaMcp.Library.Ballot

/-!
# Approval requests as ballots

Until it expires, a pending request is a ballot of its operators, with its `required_reviewers` as the
quorum: a review is a vote, a rejection dismisses it, and no other operation touches it (`step_shows`).
-/

set_option autoImplicit false

namespace MpesaMcp

open Library Python PaymentService

variable {τ π : Type}

/-! ## Requests and ballots -/

/-- What an operation does about the ballot of a request. -/
def Op.ballotEvent (approvalId : String) : Op → Option (Ballot.Event String)
  | .approveRequest id operatorId => if id = approvalId then some (.vote operatorId) else none
  | .executeApprovedPayment id operatorId => if id = approvalId then some (.vote operatorId) else none
  | .rejectRequest id => if id = approvalId then some .dismiss else none
  | _ => none

/-- The status that goes with a verdict. -/
def ApprovalStatus.ofVerdict : Option Verdict → ApprovalStatus
  | none => .pending
  | some .carried => .approved
  | some .dismissed => .rejected

/-- A request is as `a` was filed, with the reviewers and the status of a ballot. -/
structure Shows (a : ApprovalRequest) (ballot : Ballot String) (b : ApprovalRequest) : Prop where
  voters : b.reviewerIds = ballot.voters
  status : b.status = .ofVerdict ballot.verdict
  payload : b.payload = a.payload
  required : b.requiredReviewers = a.requiredReviewers
  expires : b.expiresAt = a.expiresAt

/-- A request is pending exactly while its ballot is undecided. -/
theorem ApprovalStatus.ofVerdict_eq_pending {verdict : Option Verdict} :
    ApprovalStatus.ofVerdict verdict = .pending ↔ verdict = none := by
  cases verdict with
  | none => simp [ofVerdict]
  | some verdict => cases verdict <;> simp [ofVerdict]

namespace Shows

variable {a b : ApprovalRequest} {ballot : Ballot String}

/-- A pending request opens its own ballot. -/
theorem opened (pending : a.status = .pending) : Shows a ⟨a.reviewerIds, none⟩ a :=
  ⟨rfl, pending, rfl, rfl, rfl⟩

/-- A request that shows a ballot is pending exactly while the ballot is undecided. -/
theorem pending_iff (h : Shows a ballot b) : b.status = .pending ↔ ballot.verdict = none := by
  rw [h.status, ApprovalStatus.ofVerdict_eq_pending]

/-- A rejection, of whatever request. -/
theorem dismissed (h : Shows a ballot b) (now : Datetime) :
    Shows a ballot.dismiss (b.withStatus .rejected now) where
  voters := by rw [reviewerIds_withStatus]; exact h.voters
  status := ApprovalRequest.status_withStatus b .rejected now
  payload := by rw [ApprovalRequest.payload_withStatus]; exact h.payload
  required := by rw [requiredReviewers_withStatus]; exact h.required
  expires := h.expires

/-- The vote of an operator who has reviewed the request, or comes too late. -/
theorem uncounted (h : Shows a ballot b) {operatorId : String}
    (cause : b.status ≠ .pending ∨ operatorId ∈ b.reviewerIds) :
    Shows a (ballot.vote a.requiredReviewers operatorId) b := by
  rcases cause with decided | seen
  · rw [Ballot.vote_of_decided fun hnone => decided (h.pending_iff.mpr hnone)]
    exact h
  · rw [Ballot.vote_of_mem (h.voters ▸ seen)]
    exact h

/-- A review that falls short of the quorum is a vote that leaves the ballot open. -/
theorem reviewed (h : Shows a ballot b) {operatorId : String} (pending : b.status = .pending)
    (unseen : operatorId ∉ b.reviewerIds)
    (short : (b.reviewerIds.length : Int) + 1 < b.requiredReviewers) (now : Datetime) :
    Shows a (ballot.vote a.requiredReviewers operatorId) (b.reviewedBy operatorId now) := by
  rw [h.voters, h.required] at short
  rw [Ballot.vote_of_open _ (h.pending_iff.mp pending) (h.voters ▸ unseen), if_neg (not_le.mpr short)]
  refine ⟨?_, pending, h.payload, h.required, h.expires⟩
  rw [ApprovalRequest.reviewedBy, h.voters]

/-- A review with which the quorum is reached is the vote that decides. -/
theorem approved (h : Shows a ballot b) {operatorId : String} (pending : b.status = .pending)
    (unseen : operatorId ∉ b.reviewerIds)
    (enough : b.requiredReviewers ≤ (b.reviewerIds.length : Int) + 1) (now : Datetime) :
    Shows a (ballot.vote a.requiredReviewers operatorId) (b.approvedBy operatorId now) := by
  rw [h.voters, h.required] at enough
  rw [Ballot.vote_of_open _ (h.pending_iff.mp pending) (h.voters ▸ unseen), if_pos enough]
  refine ⟨?_, rfl, h.payload, h.required, h.expires⟩
  rw [ApprovalRequest.approvedBy, ApprovalRequest.reviewedBy, h.voters]

end Shows

/-! ## One operation -/

section Application

variable (env : Env) (container : AppContainer τ π) {approvalId : String} {a b : ApprovalRequest}

/-- An expiry writes the request it names and no other. -/
theorem run_expireApproval_of_ne {x : ApprovalRequest} (other : x.approvalId ≠ approvalId)
    (w : World τ π) : (Prog.run (handle env container) (ApprovalService.expireApproval x)
      w).2.approvals.get approvalId = w.approvals.get approvalId := by
  cases hget : w.approvals.get x.approvalId with
  | none => simp [ApprovalService.expireApproval, handle, InMemoryApprovalRepository.answer,
      InMemoryApprovalRepository.updateStatus, InMemoryApprovalRepository.get, hget]
  | some y =>
    have hkey : y.approvalId = x.approvalId := Keyed.key_of_get hget
    simp only [ApprovalService.expireApproval, handle, InMemoryApprovalRepository.answer,
      InMemoryApprovalRepository.updateStatus, InMemoryApprovalRepository.get, hget,
      ApprovalService.logAuditEvent, Prog.run_bind, run_ask, Prog.run_pure]
    exact Keyed.get_put_of_ne _ (by simpa [hkey] using Ne.symm other)

/-- A sweep leaves a request alone that is not due after it: by induction on the requests swept, since
each look at the clock reads a time before the end. -/
theorem run_expireEach_early (listed : List ApprovalRequest) (w : World τ π)
    (same : ∀ x ∈ listed, x.approvalId = approvalId → x.expiresAt = b.expiresAt)
    (early : env.clock (Prog.run (handle env container) (ApprovalService.expireEach listed)
      w).2.ambient.clockReads < b.expiresAt) :
    (Prog.run (handle env container) (ApprovalService.expireEach listed) w).2.approvals.get approvalId =
      w.approvals.get approvalId := by
  induction listed generalizing w with
  | nil => rfl
  | cons x rest ih =>
    have hrest := fun y hy => same y (List.mem_cons_of_mem x hy)
    have hforward := run_forward env container (ApprovalService.expireEach (x :: rest)) w
    by_cases hp : x.status = .pending
    · have htest := run_isExpired_pending env container hp w
      by_cases hdue : x.expiresAt ≤ env.clock w.ambient.clockReads
      · -- a request that is due is another one
        have hother : x.approvalId ≠ approvalId := by
          intro hid
          have hclock := env.clock_mono hforward.clockReads
          rw [← same x List.mem_cons_self hid] at early
          exact absurd (hdue.trans hclock) (not_le.mpr early)
        have hkept := run_expireApproval_of_ne env container hother (w.readClock env)
        simp only [ApprovalService.expireEach, Prog.run_bind, htest, decide_eq_true hdue,
          if_true] at early ⊢
        cases hrun : Prog.run (handle env container) (ApprovalService.expireApproval x)
            (w.readClock env) with
        | mk answer w₁ =>
          rw [hrun] at hkept early
          cases answer with
          | error e => exact hkept
          | ok y =>
            dsimp only at early ⊢
            have hlater := ih w₁ hrest
            revert early hlater
            cases hrun' : Prog.run (handle env container) (ApprovalService.expireEach rest) w₁ with
            | mk answer' w₂ =>
              cases answer' with
              | error e => exact fun early hlater => (hlater early).trans hkept
              | ok count => exact fun early hlater => (hlater early).trans hkept
      · have hrun : Prog.run (handle env container) (ApprovalService.expireEach (x :: rest)) w =
            Prog.run (handle env container) (ApprovalService.expireEach rest) (w.readClock env) := by
          simp [ApprovalService.expireEach, htest, hdue]
        rw [hrun] at early ⊢
        exact ih (w.readClock env) hrest early
    · have hrun : Prog.run (handle env container) (ApprovalService.expireEach (x :: rest)) w =
          Prog.run (handle env container) (ApprovalService.expireEach rest) w := by
        simp [ApprovalService.expireEach, run_isExpired_decided env container hp]
      rw [hrun] at early ⊢
      exact ih w hrest early

/-- The sweep leaves a request alone that is not due at its end: every reading of the clock within it
comes before, so none of them finds the request due. -/
theorem run_expireStaleApprovals_early {w : World τ π} (stored : w.approvals.get approvalId = some b)
    (early : env.clock (Prog.run (handle env container) ApprovalService.expireStaleApprovals
      w).2.ambient.clockReads < b.expiresAt) :
    (Prog.run (handle env container) ApprovalService.expireStaleApprovals w).2.approvals.get approvalId =
      some b := by
  have hrun : Prog.run (handle env container) ApprovalService.expireStaleApprovals w =
      Prog.run (handle env container)
        (ApprovalService.expireEach (InMemoryApprovalRepository.listPending w.approvals)) w := by
    simp only [ApprovalService.expireStaleApprovals, Prog.run_bind, run_ask]
    rfl
  rw [hrun] at early ⊢
  refine (run_expireEach_early env container _ w ?_ early).trans stored
  intro x hx hid
  have hx : w.approvals.get x.approvalId = some x :=
    Keyed.mem_values_iff.mp (List.mem_filter.mp hx).1
  rw [hid, stored] at hx
  cases hx
  rfl

/-- The listing leaves a request alone that is not due at its end: it starts with the sweep, and writes
nothing after it. -/
theorem run_listPendingRequests_early {w : World τ π} (stored : w.approvals.get approvalId = some b)
    (early : env.clock (Prog.run (handle env container) ApprovalService.listPendingRequests
      w).2.ambient.clockReads < b.expiresAt) :
    (Prog.run (handle env container) ApprovalService.listPendingRequests w).2.approvals.get approvalId =
      some b := by
  obtain ⟨count, w₁, hrun, -⟩ := run_expireStaleApprovals env container w
  obtain ⟨kept, w₂, hkept, hsame⟩ := run_dropExpired env container
    (InMemoryApprovalRepository.listPending w₁.approvals) w₁
  have hlist : Prog.run (handle env container) ApprovalService.listPendingRequests w =
      (.ok kept, w₂) := by
    simp only [ApprovalService.listPendingRequests, Prog.run_bind, hrun, run_ask]
    exact hkept
  have hforward := run_forward env container (ApprovalService.dropExpired
    (InMemoryApprovalRepository.listPending w₁.approvals)) w₁
  rw [hkept] at hforward
  rw [hlist] at early ⊢
  rw [hsame]
  have hstale := run_expireStaleApprovals_early env container stored
  rw [hrun] at hstale
  exact hstale ((env.clock_mono hforward.clockReads).trans_lt early)

/-- What `execute_approved_payment` leaves behind where its request is absent or decided: its own
checks stop it before the review. -/
theorem run_execute_closed (operatorId : String) {w : World τ π}
    (closed : ∀ x, w.approvals.get approvalId = some x → x.status ≠ .pending) :
    (Prog.run (handle env container) (executeApprovedPayment approvalId operatorId) w).2 = w := by
  have lookup : Prog.run (handle env container) (ApprovalService.getApprovalRequest approvalId) w =
      (.ok (w.approvals.get approvalId), w) := rfl
  cases hget : w.approvals.get approvalId with
  | none => simp [executeApprovedPayment, lookup, hget]
  | some x =>
    have hp := closed x hget
    simp [executeApprovedPayment, lookup, hget, run_isExpired_decided env container hp, hp]

/-- A request that is due is swept with the others. -/
theorem run_execute_due (operatorId : String) {x : ApprovalRequest} {w : World τ π}
    (stored : w.approvals.get approvalId = some x) (pending : x.status = .pending)
    (due : x.expiresAt ≤ env.clock w.ambient.clockReads) :
    (Prog.run (handle env container) (executeApprovedPayment approvalId operatorId) w).2 =
      (Prog.run (handle env container) ApprovalService.expireStaleApprovals (w.readClock env)).2 := by
  have lookup : ∀ v : World τ π, Prog.run (handle env container)
      (ApprovalService.getApprovalRequest approvalId) v = (.ok (v.approvals.get approvalId), v) :=
    fun v => rfl
  obtain ⟨count, w', hrun, -⟩ := run_expireStaleApprovals env container (w.readClock env)
  simp [executeApprovedPayment, lookup, stored, run_isExpired_pending env container pending, due, hrun]

/-- A request that is not due is reviewed as `approve_request` does it, and the payment behind it leaves
the requests alone. -/
theorem run_execute_open (operatorId : String) {x : ApprovalRequest} {w : World τ π}
    (stored : w.approvals.get approvalId = some x) (pending : x.status = .pending)
    (early : env.clock w.ambient.clockReads < x.expiresAt) :
    let r := Prog.run (handle env container) (ApprovalService.approveRequest approvalId operatorId)
      (w.readClock env)
    let w' := (Prog.run (handle env container) (executeApprovedPayment approvalId operatorId) w).2
    w'.approvals = r.2.approvals ∧ r.2.ambient.Forward w'.ambient := by
  intro r w'
  have lookup : Prog.run (handle env container) (ApprovalService.getApprovalRequest approvalId) w =
      (.ok (w.approvals.get approvalId), w) := rfl
  have hw' : w' = (Prog.run (handle env container) (reviewAndExecute approvalId operatorId)
      (w.readClock env)).2 := by
    simp [w', executeApprovedPayment, lookup, stored, run_isExpired_pending env container pending,
      not_le.mpr early, pending]
  obtain ⟨response, w₁, hrun, -⟩ := review_cases env container approvalId operatorId (w.readClock env)
  have hr : r = (.ok response, w₁) := hrun
  rw [hw', hr]
  simp only [reviewAndExecute, Prog.run_bind, hrun]
  cases response.approval with
  | none => exact ⟨rfl, .refl _⟩
  | some approved =>
    dsimp only
    split
    next => exact ⟨rfl, .refl _⟩
    next =>
      rw [Prog.run_bind]
      have hsame := (run_executeApprovedStkPush env container approved.payload w₁).1
      have hforward := run_forward env container (executeApprovedStkPush approved.payload) w₁
      cases hpaid : Prog.run (handle env container) (executeApprovedStkPush approved.payload) w₁ with
      | mk answer w₂ =>
        rw [hpaid] at hsame hforward
        cases answer <;> exact ⟨hsame, hforward⟩

/-- A review of the request is a vote, where the request is not due after it: each case of
`approve_request` is a case of `Ballot.vote`, and the case of an expiry does not occur. -/
theorem run_approveRequest_shows {ballot : Ballot String} (operatorId : String) {w : World τ π}
    (stored : w.approvals.get approvalId = some b) (shows : Shows a ballot b)
    (early : env.clock w.ambient.clockReads < b.expiresAt) :
    ∃ b', (Prog.run (handle env container) (ApprovalService.approveRequest approvalId operatorId)
        w).2.approvals.get approvalId = some b' ∧
      Shows a (ballot.vote a.requiredReviewers operatorId) b' := by
  obtain ⟨response, w', hrun, hcase⟩ := review_cases env container approvalId operatorId w
  have hkey : b.approvalId = approvalId := Keyed.key_of_get stored
  rw [hrun]
  cases hcase with
  | absent missing => cases missing.symm.trans stored
  | refused x hx cause _ same =>
    cases hx.symm.trans stored
    exact ⟨b, same ▸ stored, shows.uncounted cause⟩
  | expired x hx _ due =>
    cases hx.symm.trans stored
    exact absurd due (not_le.mpr early)
  | reviewed x hx pending _ unseen short _ put =>
    cases hx.symm.trans stored
    refine ⟨_, ?_, shows.reviewed pending unseen short (env.clock (w.ambient.clockReads + 1))⟩
    rw [put]
    exact Keyed.get_put_of_eq _ hkey
  | approved x hx pending _ unseen enough _ put =>
    cases hx.symm.trans stored
    refine ⟨_, ?_, shows.approved pending unseen enough (env.clock (w.ambient.clockReads + 1))⟩
    rw [put]
    exact Keyed.get_put_of_eq _ hkey

/-- A review of another request leaves this one alone, for every write names its request. -/
theorem run_approveRequest_of_ne {id : String} (operatorId : String) (other : id ≠ approvalId)
    (w : World τ π) : (Prog.run (handle env container) (ApprovalService.approveRequest id operatorId)
      w).2.approvals.get approvalId = w.approvals.get approvalId := by
  obtain ⟨response, w', hrun, hcase⟩ := review_cases env container id operatorId w
  have hput : ∀ {x y : ApprovalRequest}, w.approvals.get id = some x → y.approvalId = x.approvalId →
      w'.approvals = w.approvals.put y → w'.approvals.get approvalId = w.approvals.get approvalId := by
    intro x y hx hy put
    have hkey : y.approvalId = id := hy.trans (Keyed.key_of_get hx)
    rw [put]
    exact Keyed.get_put_of_ne _ (hkey ▸ Ne.symm other)
  rw [hrun]
  cases hcase with
  | absent _ _ same => rw [same]
  | refused _ _ _ _ same => rw [same]
  | expired x hx _ _ _ put => exact hput hx (ApprovalRequest.approvalId_withStatus _ _ _) put
  | reviewed x hx _ _ _ _ _ put =>
    have hid : (x.reviewedBy operatorId (env.clock (w.ambient.clockReads + 1))).approvalId =
      x.approvalId := rfl
    exact hput hx hid put
  | approved x hx _ _ _ _ _ put =>
    have hid : (x.approvedBy operatorId (env.clock (w.ambient.clockReads + 1))).approvalId =
      x.approvalId := rfl
    exact hput hx hid put

/-- `execute_approved_payment` is a vote for its own request, and does nothing to another: the push
that may follow writes no request. -/
theorem step_execute_shows {ballot : Ballot String} (id operatorId : String) {w : World τ π}
    (stored : w.approvals.get approvalId = some b) (shows : Shows a ballot b)
    (early : env.clock (step env container (.executeApprovedPayment id operatorId)
      w).2.ambient.clockReads < a.expiresAt) :
    ∃ b', (step env container (.executeApprovedPayment id operatorId) w).2.approvals.get approvalId =
        some b' ∧
      Shows a (if id = approvalId then ballot.vote a.requiredReviewers operatorId else ballot) b' := by
  have hstep : (step env container (.executeApprovedPayment id operatorId) w).2 =
      (Prog.run (handle env container) (executeApprovedPayment id operatorId) w).2 := by
    simp only [step, program, Prog.run_map]
  have hforward := run_forward env container (executeApprovedPayment id operatorId) w
  rw [hstep, ← shows.expires] at early
  rw [hstep]
  have hnow : env.clock w.ambient.clockReads < b.expiresAt :=
    (env.clock_mono hforward.clockReads).trans_lt early
  by_cases closed : ∀ x, w.approvals.get id = some x → x.status ≠ .pending
  · rw [run_execute_closed env container operatorId closed]
    refine ⟨b, stored, ?_⟩
    split
    next hid => exact shows.uncounted (Or.inl (closed b (hid ▸ stored)))
    next => exact shows
  · obtain ⟨x, hx, hp⟩ : ∃ x, w.approvals.get id = some x ∧ x.status = .pending := by
      simpa using closed
    by_cases hdue : x.expiresAt ≤ env.clock w.ambient.clockReads
    · -- the request that is due is another one, and the sweep spares this one
      have hid : id ≠ approvalId := by
        rintro rfl
        cases hx.symm.trans stored
        exact absurd hdue (not_le.mpr hnow)
      rw [run_execute_due env container operatorId hx hp hdue] at early ⊢
      rw [if_neg hid]
      exact ⟨b, run_expireStaleApprovals_early env container (w := w.readClock env) stored early, shows⟩
    · obtain ⟨hsame, hlater⟩ := run_execute_open env container operatorId hx hp (not_le.mp hdue)
      rw [hsame]
      by_cases hid : id = approvalId
      · rw [if_pos hid]
        subst hid
        have hreads := run_forward env container (ApprovalService.approveRequest id operatorId)
          (w.readClock env)
        refine run_approveRequest_shows env container operatorId (w := w.readClock env) stored shows ?_
        exact (env.clock_mono (hreads.clockReads.trans hlater.clockReads)).trans_lt early
      · rw [if_neg hid, run_approveRequest_of_ne env container operatorId hid]
        exact ⟨b, stored, shows⟩

/-- A rejection of another request. -/
theorem run_rejectRequest_of_ne {id : String} (other : id ≠ approvalId) (w : World τ π) :
    (Prog.run (handle env container) (ApprovalService.rejectRequest id) w).2.approvals.get approvalId =
      w.approvals.get approvalId := by
  obtain ⟨response, w', hrun, hcase⟩ := reject_cases env container id w
  have hput : ∀ {x : ApprovalRequest} {status now}, w.approvals.get id = some x →
      w'.approvals = w.approvals.put (x.withStatus status now) →
        w'.approvals.get approvalId = w.approvals.get approvalId := by
    intro x status now hx put
    have hkey : (x.withStatus status now).approvalId = id :=
      (ApprovalRequest.approvalId_withStatus _ _ _).trans (Keyed.key_of_get hx)
    rw [put]
    exact Keyed.get_put_of_ne _ (hkey ▸ Ne.symm other)
  rw [hrun]
  cases hcase with
  | absent _ _ same => rw [same]
  | expired x hx _ _ _ put => exact hput hx put
  | rejected x hx now _ put => exact hput hx put

/-- A rejection dismisses the ballot, whatever its verdict was: also an approved request becomes
rejected. -/
theorem run_rejectRequest_shows {ballot : Ballot String} {w : World τ π}
    (stored : w.approvals.get approvalId = some b) (shows : Shows a ballot b)
    (early : env.clock w.ambient.clockReads < b.expiresAt) :
    ∃ b', (Prog.run (handle env container) (ApprovalService.rejectRequest approvalId)
        w).2.approvals.get approvalId = some b' ∧ Shows a ballot.dismiss b' := by
  obtain ⟨response, w', hrun, hcase⟩ := reject_cases env container approvalId w
  rw [hrun]
  cases hcase with
  | absent missing => cases missing.symm.trans stored
  | expired x hx _ due =>
    cases hx.symm.trans stored
    exact absurd due (not_le.mpr early)
  | rejected x hx now _ put =>
    cases hx.symm.trans stored
    refine ⟨_, ?_, shows.dismissed now⟩
    rw [put]
    exact Keyed.get_put_of_eq _
      ((ApprovalRequest.approvalId_withStatus _ _ _).trans (Keyed.key_of_get stored))

/-- **One operation and one ballot**: it does what its ballot event says, where the request is not due
after it. -/
theorem step_shows (op : Op) {ballot : Ballot String} {w : World τ π} (drawn : AllDrawn env w)
    (stored : w.approvals.get approvalId = some b) (shows : Shows a ballot b)
    (early : env.clock (step env container op w).2.ambient.clockReads < a.expiresAt) :
    ∃ b', (step env container op w).2.approvals.get approvalId = some b' ∧
      Shows a (ballot.run a.requiredReviewers (op.ballotEvent approvalId).toList) b' := by
  have unmoved : op.ballotEvent approvalId = none →
      (step env container op w).2.approvals.get approvalId = w.approvals.get approvalId →
        ∃ b', (step env container op w).2.approvals.get approvalId = some b' ∧
          Shows a (ballot.run a.requiredReviewers (op.ballotEvent approvalId).toList) b' := by
    intro hnone hsame
    rw [hnone]
    exact ⟨b, hsame.trans stored, shows⟩
  have spared : (program container env.toRuntime op).Sends Msg.SparesApprovals →
      (step env container op w).2.approvals.get approvalId = w.approvals.get approvalId :=
    fun sends => congrArg (Keyed.get · approvalId) (run_approvals env container sends w)
  have hforward := run_forward env container (program container env.toRuntime op) w
  have hnow : env.clock w.ambient.clockReads < b.expiresAt := by
    rw [shows.expires]
    exact (env.clock_mono hforward.clockReads).trans_lt early
  have hstep : ∀ {α : Type} {method : App α} {reply : α → Reply},
      program container env.toRuntime op = reply <$> method →
        (step env container op w).2 = (Prog.run (handle env container) method w).2 := by
    intro α method reply hprogram
    simp only [step, hprogram, Prog.run_map]
  cases op with
  | executeApprovedPayment id operatorId =>
    obtain ⟨b', hb', hshows⟩ := step_execute_shows env container id operatorId stored shows early
    refine ⟨b', hb', ?_⟩
    by_cases hid : id = approvalId
    · have hevent : (Op.executeApprovedPayment id operatorId).ballotEvent approvalId =
          some (.vote operatorId) := if_pos hid
      rw [if_pos hid] at hshows
      rw [hevent]
      exact hshows
    · have hevent : (Op.executeApprovedPayment id operatorId).ballotEvent approvalId = none :=
        if_neg hid
      rw [if_neg hid] at hshows
      rw [hevent]
      exact hshows
  | approveRequest id operatorId =>
    by_cases hid : id = approvalId
    · subst hid
      rw [hstep rfl, Op.ballotEvent, if_pos rfl]
      exact run_approveRequest_shows env container operatorId stored shows hnow
    · refine unmoved (if_neg hid) ?_
      rw [hstep rfl]
      exact run_approveRequest_of_ne env container operatorId hid w
  | rejectRequest id =>
    by_cases hid : id = approvalId
    · subst hid
      rw [hstep rfl, Op.ballotEvent, if_pos rfl]
      exact run_rejectRequest_shows env container stored shows hnow
    · refine unmoved (if_neg hid) ?_
      rw [hstep rfl]
      exact run_rejectRequest_of_ne env container hid w
  | expireStaleApprovals =>
    refine unmoved rfl ?_
    rw [hstep rfl, ← shows.expires] at early
    rw [hstep rfl, stored]
    exact run_expireStaleApprovals_early env container stored early
  | listPendingRequests =>
    refine unmoved rfl ?_
    rw [hstep rfl, ← shows.expires] at early
    rw [hstep rfl, stored]
    exact run_listPendingRequests_early env container stored early
  | initiateStkPush args =>
    refine unmoved rfl ?_
    obtain ⟨output, w', hrun, hcase⟩ := initiation_cases env container args w
    rw [hstep rfl, hrun]
    cases hcase with
    | quiet same => rw [same]
    | filed _ _ _ _ approval hdrawn _ _ _ put =>
      have hid : approvalId ≠ approval.approvalId := by
        intro hid
        rw [hid, hdrawn, drawn.fresh] at stored
        cases stored
      rw [put]
      exact Keyed.get_put_of_ne _ hid
    | paid request _ _ _ ran =>
      have hsame := run_approvals env container ((sends_executeStkPush request
        (keyFor env.toRuntime args request)).mono fun _ => Msg.OfExecution.sparesApprovals) w
      rw [ran] at hsame
      exact congrArg (Keyed.get · approvalId) hsame
  | savePendingTransaction args => exact unmoved rfl (spared (.map ((sends_ask _).mpr trivial) _))
  | updateTransactionStatus args => exact unmoved rfl (spared (.map ((sends_ask _).mpr trivial) _))
  | process payload =>
    have h := StkCallbackHandler.sends_process env.toRuntime payload
    exact unmoved rfl (spared (.map (h.mono fun _ hm => hm.ofCallback.sparesApprovals) _))
  | postCallback request =>
    have h := container.callbackRoute.sends_post env.toRuntime request
    exact unmoved rfl (spared (.map (h.mono fun _ => Msg.OfCallback.sparesApprovals) _))
  | generateReceipt checkoutRequestId =>
    have h := ReceiptService.sends_generateReceipt checkoutRequestId
    exact unmoved rfl (spared (.map (h.mono fun _ => Msg.OfReading.sparesApprovals) _))
  | generateReceiptByReference reference =>
    have h := ReceiptService.sends_generateReceiptByReference reference
    exact unmoved rfl (spared (.map (h.mono fun _ => Msg.OfReading.sparesApprovals) _))
  | getTodaySummary =>
    have h := AnalyticsService.sends_getTodaySummary
    exact unmoved rfl (spared (.map (h.mono fun _ => Msg.OfReading.sparesApprovals) _))
  | getFailedTransactions =>
    have h := AnalyticsService.sends_getFailedTransactions
    exact unmoved rfl (spared (.map (h.mono fun _ => Msg.OfReading.sparesApprovals) _))
  | runReconciliation =>
    have h := container.reconciliationService.sends_runReconciliation
    exact unmoved rfl (spared (.map (h.mono fun _ => Msg.OfReading.sparesApprovals) _))

/-- What is neither a vote nor a rejection leaves the ballot as it is. -/
theorem Drives.shows {does : Op → Prop} {ballot : Ballot String} {w w' : World τ π}
    (drives : Drives env container does w w')
    (silent : ∀ op, does op → op.ballotEvent approvalId = none) (drawn : AllDrawn env w)
    (stored : w.approvals.get approvalId = some b) (shows : Shows a ballot b)
    (early : env.clock w'.ambient.clockReads < a.expiresAt) :
    ∃ b', w'.approvals.get approvalId = some b' ∧ Shows a ballot b' := by
  induction drives with
  | refl => exact ⟨b, stored, shows⟩
  | @tail v v' before did ih =>
    have hforward : v.ambient.Forward v'.ambient := Drives.forward (.single did)
    obtain ⟨b', hb', hshows⟩ := ih ((env.clock_mono hforward.clockReads).trans_lt early)
    cases did with
    | clock forward => exact ⟨b', hb', hshows⟩
    | @reads _ p sends =>
      have hsame : (Prog.run (handle env container) p v).2.approvals = v.approvals :=
        Prog.run_kept (I := fun u : World τ π => u.approvals = v.approvals)
          (fun m hm u hu => (handle_approvals_of_reads hm u).trans hu) sends rfl
      exact ⟨b', hsame ▸ hb', hshows⟩
    | @takes op hdoes =>
      have hstep := step_shows env container op (Drives.drawn before drawn) hb' hshows early
      rw [silent op hdoes] at hstep
      exact hstep

/-! ## Requests that are short of reviews -/

/-- A pending request is short of its quorum. -/
def PendingShort (w : World τ π) : Prop :=
  ∀ approvalId a, w.approvals.get approvalId = some a → a.status = .pending →
    (a.reviewerIds.length : Int) < max 1 a.requiredReviewers

/-- One operation keeps every pending request short of its quorum, for the review that makes the quorum
up also approves. -/
theorem pendingShort_step (op : Op) {w : World τ π} (h : PendingShort w) :
    PendingShort (step env container op w).2 := by
  intro approvalId b hb hpending
  cases step_cases env container op w with
  | moved moves _ =>
    rcases moves approvalId with hsame | ⟨a, c, ha, hc, ⟨k, move⟩, -⟩
    · exact h approvalId b (hsame ▸ hb) hpending
    · cases hc.symm.trans hb
      cases move with
      | expire => simp at hpending
      | review operatorId _ _ _ short =>
        have hlength : ((a.reviewedBy operatorId (env.clock (k + 1))).reviewerIds.length : Int) =
            a.reviewerIds.length + 1 := by simp [ApprovalRequest.reviewedBy]
        have hrequired : (a.reviewedBy operatorId (env.clock (k + 1))).requiredReviewers =
            a.requiredReviewers := rfl
        omega
      | approve => cases hpending
      | reject => simp at hpending
  | filed _ _ _ _ _ _ approval _ _ blank _ put =>
    rw [put, Keyed.get_put] at hb
    split at hb
    next =>
      cases hb
      rw [blank.2, List.length_nil]
      omega
    next => exact h approvalId b hb hpending
  | paid _ _ _ _ _ _ same => exact h approvalId b (same ▸ hb) hpending
  | executed _ _ _ _ _ _ _ _ _ _ put =>
    rw [put, Keyed.get_put] at hb
    split at hb
    next =>
      cases hb
      cases hpending
    next => exact h approvalId b hb hpending

/-- Whatever an input drives keeps every pending request short of its quorum, operation by operation. -/
theorem Drives.pendingShort {does : Op → Prop} {w w' : World τ π}
    (drives : Drives env container does w w') (h : PendingShort w) : PendingShort w' := by
  refine drives.kept (I := PendingShort) ?_ ?_ (fun op _ v => pendingShort_step env container op) h
  · intro v a _ hv
    exact hv
  · intro m v hm hv approvalId b hb
    rw [handle_approvals_of_reads hm] at hb
    exact hv approvalId b hb

end Application

end MpesaMcp
