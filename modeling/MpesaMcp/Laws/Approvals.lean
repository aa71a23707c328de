import MpesaMcp.Laws.Frames

/-!
# What the approval service does to the stored requests

`ApprovalRequest.Move` lists every way an operation changes a stored request: an expiry, a review, a
completing review, a rejection. The first three happen to pending requests only, and each is decided
at a reading of the clock; a rejection happens to any request.

`review_cases` says what one `approve_request` does, `MovesOnly` what a whole operation may do to the
store of requests.
-/

set_option autoImplicit false

namespace MpesaMcp

open Library Python

namespace ApprovalRequest

/-- A request after a review by an operator. -/
def reviewedBy (approval : ApprovalRequest) (operatorId : String) (now : Datetime) :
    ApprovalRequest :=
  { approval with
    reviewerIds := approval.reviewerIds ++ [operatorId]
    reviewCount := ((approval.reviewerIds ++ [operatorId]).length : Int)
    reviewedAt := some now }

/-- A request after the review that completes it. -/
def approvedBy (approval : ApprovalRequest) (operatorId : String) (now : Datetime) :
    ApprovalRequest :=
  { approval.reviewedBy operatorId now with status := .approved }

/-- One change of a stored request, decided at the k-th reading of the clock. -/
inductive Move (env : Env) (k : Nat) : ApprovalRequest → ApprovalRequest → Prop
  | expire {a : ApprovalRequest} (pending : a.status = .pending)
      (due : a.expiresAt ≤ env.clock k) : Move env k a (a.withStatus .expired (env.clock (k + 1)))
  | review {a : ApprovalRequest} (operatorId : String) (pending : a.status = .pending)
      (early : env.clock k < a.expiresAt) (unseen : operatorId ∉ a.reviewerIds)
      (short : (a.reviewerIds.length : Int) + 1 < a.requiredReviewers) :
      Move env k a (a.reviewedBy operatorId (env.clock (k + 1)))
  | approve {a : ApprovalRequest} (operatorId : String) (pending : a.status = .pending)
      (early : env.clock k < a.expiresAt) (unseen : operatorId ∉ a.reviewerIds)
      (enough : a.requiredReviewers ≤ (a.reviewerIds.length : Int) + 1) :
      Move env k a (a.approvedBy operatorId (env.clock (k + 1)))
  | reject {a : ApprovalRequest} (now : Datetime) : Move env k a (a.withStatus .rejected now)

@[simp] theorem approvalId_withStatus (a : ApprovalRequest) (s : ApprovalStatus) (t : Datetime) :
    (a.withStatus s t).approvalId = a.approvalId := by
  unfold withStatus
  split <;> rfl

@[simp] theorem status_withStatus (a : ApprovalRequest) (s : ApprovalStatus) (t : Datetime) :
    (a.withStatus s t).status = s := by
  unfold withStatus
  split <;> rfl

@[simp] theorem payload_withStatus (a : ApprovalRequest) (s : ApprovalStatus) (t : Datetime) :
    (a.withStatus s t).payload = a.payload := by
  unfold withStatus
  split <;> rfl

/-- A move keeps the id and the payload of the request. -/
theorem Move.keeps {env : Env} {k : Nat} {a b : ApprovalRequest} (h : Move env k a b) :
    b.approvalId = a.approvalId ∧ b.payload = a.payload := by
  cases h with
  | expire => exact ⟨approvalId_withStatus _ _ _, payload_withStatus _ _ _⟩
  | review => exact ⟨rfl, rfl⟩
  | approve => exact ⟨rfl, rfl⟩
  | reject => exact ⟨approvalId_withStatus _ _ _, payload_withStatus _ _ _⟩

/-- A decided request moves only by a rejection. -/
theorem Move.of_decided {env : Env} {k : Nat} {a b : ApprovalRequest} (h : Move env k a b)
    (decided : a.status ≠ .pending) : ∃ now, b = a.withStatus .rejected now := by
  cases h with
  | expire pending => exact absurd pending decided
  | review _ pending => exact absurd pending decided
  | approve _ pending => exact absurd pending decided
  | reject now => exact ⟨now, rfl⟩

end ApprovalRequest

open ApprovalRequest (Move)

variable {τ π : Type} (env : Env) (container : AppContainer τ π)

/-! ## Single steps -/

/-- An expiry test of a pending request reads the clock once. -/
theorem run_isExpired_pending {a : ApprovalRequest} (h : a.status = .pending) (w : World τ π) :
    Prog.run (handle env container) (ApprovalService.isExpired a) w =
      (.ok (decide (a.expiresAt ≤ env.clock w.ambient.clockReads)),
        w.readClock env) := by
  simp [ApprovalService.isExpired, h, handle_now]

/-- An expiry test of a decided request reads nothing. -/
theorem run_isExpired_decided {a : ApprovalRequest} (h : a.status ≠ .pending) (w : World τ π) :
    Prog.run (handle env container) (ApprovalService.isExpired a) w = (.ok false, w) := by
  simp [ApprovalService.isExpired, h]

/-- The expiry of a stored request. -/
theorem run_expireApproval {a : ApprovalRequest} {w : World τ π}
    (h : w.approvals.get a.approvalId = some a) :
    ∃ w', Prog.run (handle env container) (ApprovalService.expireApproval a) w =
        (.ok (a.withStatus .expired (env.clock w.ambient.clockReads)), w') ∧
      w'.approvals = w.approvals.put (a.withStatus .expired (env.clock w.ambient.clockReads)) ∧
      w'.ambient = (w.ambient.now env).2 := by
  refine ⟨_, by simp [ApprovalService.expireApproval, handle, InMemoryApprovalRepository.answer,
    InMemoryApprovalRepository.updateStatus, InMemoryApprovalRepository.get, h,
    ApprovalService.logAuditEvent, Ambient.now]; rfl, ?_, ?_⟩ <;> rfl

/-- The answer about a request that expired. -/
theorem run_expiredResponse {a : ApprovalRequest} {w : World τ π}
    (h : w.approvals.get a.approvalId = some a) :
    ∃ response w', Prog.run (handle env container) (ApprovalService.expiredResponse a) w =
        (.ok response, w') ∧
      response.status = .expired ∧
      response.approval = some (a.withStatus .expired (env.clock w.ambient.clockReads)) ∧
      w'.approvals = w.approvals.put (a.withStatus .expired (env.clock w.ambient.clockReads)) := by
  obtain ⟨w', hrun, hput, -⟩ := run_expireApproval env container h
  refine ⟨⟨.expired, false, "Approval request has expired.",
    some (a.withStatus .expired (env.clock w.ambient.clockReads))⟩, w', ?_, rfl, rfl, hput⟩
  simp only [ApprovalService.expiredResponse, Prog.run_bind, hrun, Prog.run_pure]

/-! ## One review -/

/-- What one `approve_request` answers and leaves in the store of requests. -/
inductive ReviewCase (w : World τ π) (approvalId operatorId : String)
    (response : ApprovalServiceResponse) (w' : World τ π) : Prop
  | absent (missing : w.approvals.get approvalId = none) (answer : response.approval = none)
      (same : w'.approvals = w.approvals)
  | refused (a : ApprovalRequest) (stored : w.approvals.get approvalId = some a)
      (cause : a.status ≠ .pending ∨ operatorId ∈ a.reviewerIds)
      (answer : response.status = .blocked ∧ response.approval = some a)
      (same : w'.approvals = w.approvals)
  | expired (a : ApprovalRequest) (stored : w.approvals.get approvalId = some a)
      (pending : a.status = .pending) (due : a.expiresAt ≤ env.clock w.ambient.clockReads)
      (answer : response.status = .expired ∧ response.approval =
        some (a.withStatus .expired (env.clock (w.ambient.clockReads + 1))))
      (put : w'.approvals = w.approvals.put
        (a.withStatus .expired (env.clock (w.ambient.clockReads + 1))))
  | reviewed (a : ApprovalRequest) (stored : w.approvals.get approvalId = some a)
      (pending : a.status = .pending) (early : env.clock w.ambient.clockReads < a.expiresAt)
      (unseen : operatorId ∉ a.reviewerIds)
      (short : (a.reviewerIds.length : Int) + 1 < a.requiredReviewers)
      (answer : response.status = .partiallyApproved ∧ response.approval =
        some (a.reviewedBy operatorId (env.clock (w.ambient.clockReads + 1))))
      (put : w'.approvals = w.approvals.put
        (a.reviewedBy operatorId (env.clock (w.ambient.clockReads + 1))))
  | approved (a : ApprovalRequest) (stored : w.approvals.get approvalId = some a)
      (pending : a.status = .pending) (early : env.clock w.ambient.clockReads < a.expiresAt)
      (unseen : operatorId ∉ a.reviewerIds)
      (enough : a.requiredReviewers ≤ (a.reviewerIds.length : Int) + 1)
      (answer : response.status = .approved ∧ response.approval =
        some (a.approvedBy operatorId (env.clock (w.ambient.clockReads + 1))))
      (put : w'.approvals = w.approvals.put
        (a.approvedBy operatorId (env.clock (w.ambient.clockReads + 1))))
      (reads : w'.ambient.clockReads = w.ambient.clockReads + 2)

/-- An operator's first review of a pending request before its expiry: short of the number required it
is added to the others, and the one that reaches the number approves. -/
theorem run_reviewPending (approvalId operatorId : String) {a : ApprovalRequest}
    (unseen : operatorId ∉ a.reviewerIds) (w : World τ π) :
    ∃ response w', Prog.run (handle env container)
        (ApprovalService.reviewPending approvalId operatorId a) w = (.ok response, w') ∧
      w'.ambient.clockReads = w.ambient.clockReads + 1 ∧
      if (a.reviewerIds.length : Int) + 1 < a.requiredReviewers then
        response.status = .partiallyApproved ∧
        response.approval = some (a.reviewedBy operatorId (env.clock w.ambient.clockReads)) ∧
        w'.approvals = w.approvals.put
          (a.reviewedBy operatorId (env.clock w.ambient.clockReads))
      else
        response.status = .approved ∧
        response.approval = some (a.approvedBy operatorId (env.clock w.ambient.clockReads)) ∧
        w'.approvals = w.approvals.put
          (a.approvedBy operatorId (env.clock w.ambient.clockReads)) := by
  by_cases hshort : (a.reviewerIds.length : Int) + 1 < a.requiredReviewers
  · simp only [if_pos hshort]
    refine ⟨_, _, by simp [ApprovalService.reviewPending, unseen, handle, hshort,
      InMemoryApprovalRepository.answer, InMemoryApprovalRepository.save, Ambient.now,
      ApprovalService.logAuditEvent]; exact ⟨rfl, rfl⟩, rfl, rfl, ?_, ?_⟩
    · simp [ApprovalRequest.reviewedBy]
    · simp [ApprovalRequest.reviewedBy]
  · simp only [if_neg hshort]
    refine ⟨_, _, by simp [ApprovalService.reviewPending, unseen, handle, hshort,
      InMemoryApprovalRepository.answer, InMemoryApprovalRepository.save, Ambient.now,
      ApprovalService.logAuditEvent]; exact ⟨rfl, rfl⟩, rfl, rfl, ?_, ?_⟩
    · simp [ApprovalRequest.reviewedBy, ApprovalRequest.approvedBy]
    · simp [ApprovalRequest.reviewedBy, ApprovalRequest.approvedBy]

/-- `approve_request` never raises, and does what one of the cases says. What follows about reviews is
read off these cases, and the program is not unfolded again. -/
theorem review_cases (approvalId operatorId : String) (w : World τ π) :
    ∃ response w', Prog.run (handle env container)
        (ApprovalService.approveRequest approvalId operatorId) w = (.ok response, w') ∧
      ReviewCase env w approvalId operatorId response w' := by
  have lookup : handle env container (.approvals (.get approvalId)) w =
      (.ok (w.approvals.get approvalId), w) := rfl
  cases hget : w.approvals.get approvalId with
  | none =>
    refine ⟨ApprovalService.notFoundResponse, w, ?_, .absent hget rfl rfl⟩
    simp [ApprovalService.approveRequest, lookup, hget]
  | some a =>
    have hid : a.approvalId = approvalId := Keyed.key_of_get hget
    by_cases hp : a.status = .pending
    case neg =>
      refine ⟨ApprovalService.blockedResponse a "Approval request is not pending.", w, ?_,
        .refused a hget (Or.inl hp) ⟨rfl, rfl⟩ rfl⟩
      simp [ApprovalService.approveRequest, lookup, hget, run_isExpired_decided env container hp, hp]
    case pos =>
      by_cases hdue : a.expiresAt ≤ env.clock w.ambient.clockReads
      · obtain ⟨response, w', hrun, hstatus, happroval, hput⟩ :=
          run_expiredResponse env container (a := a) (w := w.readClock env) (hid ▸ hget)
        refine ⟨response, w', ?_, .expired a hget hp hdue ⟨hstatus, happroval⟩ hput⟩
        simp [ApprovalService.approveRequest, lookup, hget, run_isExpired_pending env container hp,
          hdue, hrun]
      · by_cases hseen : operatorId ∈ a.reviewerIds
        · refine ⟨ApprovalService.blockedResponse a "Operator has already approved this request.",
            w.readClock env, ?_,
            .refused a hget (Or.inr hseen) ⟨rfl, rfl⟩ rfl⟩
          simp [ApprovalService.approveRequest, lookup, hget,
            run_isExpired_pending env container hp, hdue, hp, ApprovalService.reviewPending, hseen]
        · have hearly := not_le.mp hdue
          obtain ⟨response, w', hrun, hreads, hcase⟩ := run_reviewPending env container approvalId
            operatorId hseen (w.readClock env)
          refine ⟨response, w', ?_, ?_⟩
          · simp [ApprovalService.approveRequest, lookup, hget,
              run_isExpired_pending env container hp, hdue, hp, hrun]
          · split at hcase
            next hshort =>
              exact .reviewed a hget hp hearly hseen hshort ⟨hcase.1, hcase.2.1⟩ hcase.2.2
            next hshort =>
              exact .approved a hget hp hearly hseen (not_lt.mp hshort) ⟨hcase.1, hcase.2.1⟩
                hcase.2.2 hreads

/-! ## One rejection -/

/-- What one `reject_request` answers and leaves in the store of requests. -/
inductive RejectCase (w : World τ π) (approvalId : String) (response : ApprovalServiceResponse)
    (w' : World τ π) : Prop
  | absent (missing : w.approvals.get approvalId = none) (answer : response.approval = none)
      (same : w'.approvals = w.approvals)
  | expired (a : ApprovalRequest) (stored : w.approvals.get approvalId = some a)
      (pending : a.status = .pending) (due : a.expiresAt ≤ env.clock w.ambient.clockReads)
      (answer : response.status = .expired)
      (put : w'.approvals = w.approvals.put
        (a.withStatus .expired (env.clock (w.ambient.clockReads + 1))))
  | rejected (a : ApprovalRequest) (stored : w.approvals.get approvalId = some a) (now : Datetime)
      (answer : response.status = .rejected ∧
        response.approval = some (a.withStatus .rejected now))
      (put : w'.approvals = w.approvals.put (a.withStatus .rejected now))

/-- A rejection that found its request. -/
theorem run_rejectStored {approvalId : String} {a : ApprovalRequest} {w : World τ π}
    (h : w.approvals.get approvalId = some a) :
    ∃ response w', Prog.run (handle env container) (ApprovalService.rejectStored approvalId) w =
        (.ok response, w') ∧
      response.status = .rejected ∧
      response.approval = some (a.withStatus .rejected (env.clock w.ambient.clockReads)) ∧
      w'.approvals = w.approvals.put (a.withStatus .rejected (env.clock w.ambient.clockReads)) := by
  refine ⟨_, _, by simp [ApprovalService.rejectStored, handle, InMemoryApprovalRepository.answer,
    InMemoryApprovalRepository.updateStatus, InMemoryApprovalRepository.get, h,
    ApprovalService.logAuditEvent, Ambient.now]; exact ⟨rfl, rfl⟩, rfl, rfl, rfl⟩

/-- `reject_request` never raises, and does what one of the cases says: only a pending request is
looked at for its expiry, and any other is rejected as it is. -/
theorem reject_cases (approvalId : String) (w : World τ π) :
    ∃ response w', Prog.run (handle env container) (ApprovalService.rejectRequest approvalId) w =
        (.ok response, w') ∧ RejectCase env w approvalId response w' := by
  have lookup : handle env container (.approvals (.get approvalId)) w =
      (.ok (w.approvals.get approvalId), w) := rfl
  cases hget : w.approvals.get approvalId with
  | none =>
    refine ⟨ApprovalService.notFoundResponse, w, ?_, .absent hget rfl rfl⟩
    simp [ApprovalService.rejectRequest, hget, ApprovalService.rejectStored, handle,
      InMemoryApprovalRepository.answer, InMemoryApprovalRepository.updateStatus,
      InMemoryApprovalRepository.get]
  | some a =>
    have hid : a.approvalId = approvalId := Keyed.key_of_get hget
    by_cases hp : a.status = .pending
    case neg =>
      obtain ⟨response, w', hrun, hstatus, happroval, hput⟩ :=
        run_rejectStored env container hget
      refine ⟨response, w', ?_, .rejected a hget _ ⟨hstatus, happroval⟩ hput⟩
      simp [ApprovalService.rejectRequest, lookup, hget, run_isExpired_decided env container hp,
        hrun]
    case pos =>
      by_cases hdue : a.expiresAt ≤ env.clock w.ambient.clockReads
      · obtain ⟨response, w', hrun, hstatus, -, hput⟩ :=
          run_expiredResponse env container (a := a) (w := w.readClock env) (hid ▸ hget)
        refine ⟨response, w', ?_, .expired a hget hp hdue hstatus hput⟩
        simp [ApprovalService.rejectRequest, lookup, hget, run_isExpired_pending env container hp,
          hdue, hrun]
      · obtain ⟨response, w', hrun, hstatus, happroval, hput⟩ :=
          run_rejectStored env container (w := w.readClock env) hget
        refine ⟨response, w', ?_, .rejected a hget _ ⟨hstatus, happroval⟩ hput⟩
        simp [ApprovalService.rejectRequest, lookup, hget, run_isExpired_pending env container hp,
          hdue, hrun]

/-! ## Expiry of the stale requests -/

/-- Every request is as before or has moved as `R` allows. -/
def MovesOnly (R : ApprovalRequest → ApprovalRequest → Prop) (before after : Approvals) : Prop :=
  ∀ approvalId, after.get approvalId = before.get approvalId ∨
    ∃ a b, before.get approvalId = some a ∧ after.get approvalId = some b ∧ R a b

theorem MovesOnly.of_eq {R : ApprovalRequest → ApprovalRequest → Prop} {before after : Approvals}
    (h : after = before) : MovesOnly R before after :=
  fun _ => Or.inl (by rw [h])

/-- Storing the moved record of a stored request moves that request only. -/
theorem MovesOnly.of_put {R : ApprovalRequest → ApprovalRequest → Prop} {before : Approvals}
    {approvalId : String} {a b : ApprovalRequest} (stored : before.get approvalId = some a)
    (hid : b.approvalId = a.approvalId) (move : R a b) : MovesOnly R before (before.put b) := by
  intro id
  have hkey : b.approvalId = approvalId := hid.trans (Keyed.key_of_get stored)
  by_cases h : id = approvalId
  · exact Or.inr ⟨a, b, h ▸ stored, Keyed.get_put_of_eq before (hkey.trans h.symm), move⟩
  · exact Or.inl (Keyed.get_put_of_ne before (hkey ▸ h))

theorem MovesOnly.mono {R S : ApprovalRequest → ApprovalRequest → Prop} {before after : Approvals}
    (h : MovesOnly R before after) (sub : ∀ a b, R a b → S a b) : MovesOnly S before after := by
  intro id
  rcases h id with h | ⟨a, b, ha, hb, hR⟩
  · exact Or.inl h
  · exact Or.inr ⟨a, b, ha, hb, sub a b hR⟩

/-- An expiry, at some reading of the clock. -/
def Expires (env : Env) (a b : ApprovalRequest) : Prop :=
  a.status = .pending ∧ ∃ k, a.expiresAt ≤ env.clock k ∧
    b = a.withStatus .expired (env.clock (k + 1))

theorem Expires.move {env : Env} {a b : ApprovalRequest} (h : Expires env a b) :
    ∃ k, Move env k a b := by
  obtain ⟨hp, k, hdue, rfl⟩ := h
  exact ⟨k, .expire hp hdue⟩

/-- The loop over listed requests that are stored, pending and distinct expires some of them and
leaves every other request alone. -/
theorem run_expireEach (listed : List ApprovalRequest) (w : World τ π)
    (stored : ∀ a ∈ listed, w.approvals.get a.approvalId = some a)
    (pending : ∀ a ∈ listed, a.status = .pending)
    (distinct : (listed.map ApprovalRequest.approvalId).Nodup) :
    ∃ count w', Prog.run (handle env container) (ApprovalService.expireEach listed) w =
        (.ok count, w') ∧ MovesOnly (Expires env) w.approvals w'.approvals ∧
      ∀ approvalId, approvalId ∉ listed.map ApprovalRequest.approvalId →
        w'.approvals.get approvalId = w.approvals.get approvalId := by
  induction listed generalizing w with
  | nil => exact ⟨0, w, rfl, .of_eq rfl, fun _ _ => rfl⟩
  | cons a rest ih =>
    have hp := pending a List.mem_cons_self
    simp only [List.map_cons, List.nodup_cons] at distinct
    have htest := run_isExpired_pending env container hp w
    by_cases hdue : a.expiresAt ≤ env.clock w.ambient.clockReads
    · obtain ⟨w₁, hrun₁, hput, -⟩ := run_expireApproval env container (a := a)
        (w := w.readClock env) (stored a List.mem_cons_self)
      -- the other listed requests have other ids, so they are still stored as listed
      have hother : ∀ id, id ≠ a.approvalId → w₁.approvals.get id = w.approvals.get id := by
        intro id hid
        rw [hput]
        exact Keyed.get_put_of_ne _ (by simpa using hid)
      have hne : ∀ b ∈ rest, b.approvalId ≠ a.approvalId := fun b hb he =>
        distinct.1 (he ▸ List.mem_map_of_mem hb)
      obtain ⟨count, w', hrun, hmoves, hkeep⟩ := ih (w := w₁)
        (fun b hb => (hother _ (hne b hb)).trans (stored b (List.mem_cons_of_mem _ hb)))
        (fun b hb => pending b (List.mem_cons_of_mem _ hb)) distinct.2
      refine ⟨count + 1, w', ?_, ?_, ?_⟩
      · simp [ApprovalService.expireEach, htest, hdue, hrun₁, hrun]
      · intro id
        by_cases hid : id = a.approvalId
        · right
          refine ⟨a, _, hid ▸ stored a List.mem_cons_self, ?_, hp, w.ambient.clockReads, hdue, rfl⟩
          rw [hkeep id (hid ▸ distinct.1), hput]
          exact Keyed.get_put_of_eq _ (by simp [hid])
        · rw [← hother id hid]
          exact hmoves id
      · intro id hid
        simp only [List.map_cons, List.mem_cons, not_or] at hid
        rw [hkeep id hid.2, hother id hid.1]
    · obtain ⟨count, w', hrun, hmoves, hkeep⟩ := ih (w := w.readClock env)
        (fun b hb => stored b (List.mem_cons_of_mem _ hb))
        (fun b hb => pending b (List.mem_cons_of_mem _ hb)) distinct.2
      refine ⟨count, w', ?_, hmoves, fun id hid => hkeep id fun hmem => hid ?_⟩
      · simp [ApprovalService.expireEach, htest, hdue, hrun]
      · exact List.mem_cons_of_mem _ hmem

/-- `expire_stale_approvals` never raises and only expires: by induction on the pending requests it was
given, each of which it looks at with a reading of the clock of its own. -/
theorem run_expireStaleApprovals (w : World τ π) :
    ∃ count w', Prog.run (handle env container) ApprovalService.expireStaleApprovals w =
        (.ok count, w') ∧ MovesOnly (Expires env) w.approvals w'.approvals := by
  have hmem : ∀ a ∈ InMemoryApprovalRepository.listPending w.approvals,
      a ∈ w.approvals.values ∧ a.status = .pending := by
    intro a ha
    simpa [InMemoryApprovalRepository.listPending] using ha
  obtain ⟨count, w', hrun, hmoves, -⟩ := run_expireEach env container
    (InMemoryApprovalRepository.listPending w.approvals) w
    (fun a ha => Keyed.mem_values_iff.mp (hmem a ha).1) (fun a ha => (hmem a ha).2)
    (w.approvals.nodup.sublist (List.filter_sublist.map _))
  refine ⟨count, w', ?_, hmoves⟩
  simp only [ApprovalService.expireStaleApprovals, Prog.run_bind, run_ask]
  exact hrun

/-- The comprehension of `list_pending_requests` only reads the clock, once for each request, so what
it leaves out is still stored as pending. -/
theorem run_dropExpired (listed : List ApprovalRequest) (w : World τ π) :
    ∃ kept w', Prog.run (handle env container) (ApprovalService.dropExpired listed) w =
      (.ok kept, w') ∧ w'.approvals = w.approvals := by
  induction listed generalizing w with
  | nil => exact ⟨[], w, rfl, rfl⟩
  | cons a rest ih =>
    by_cases hp : a.status = .pending
    · obtain ⟨kept, w', hrun, happrovals⟩ := ih (w.readClock env)
      refine ⟨if a.expiresAt ≤ env.clock w.ambient.clockReads then kept else a :: kept, w', ?_,
        happrovals⟩
      simp [ApprovalService.dropExpired, run_isExpired_pending env container hp, hrun]
    · obtain ⟨kept, w', hrun, happrovals⟩ := ih w
      refine ⟨a :: kept, w', ?_, happrovals⟩
      simp [ApprovalService.dropExpired, run_isExpired_decided env container hp, hrun]

/-- `list_pending_requests` never raises and only expires: the sweep comes first, and what the
comprehension leaves out it does not write. -/
theorem run_listPendingRequests (w : World τ π) :
    ∃ approvals w', Prog.run (handle env container) ApprovalService.listPendingRequests w =
        (.ok approvals, w') ∧ MovesOnly (Expires env) w.approvals w'.approvals := by
  obtain ⟨count, w₁, hrun₁, hmoves⟩ := run_expireStaleApprovals env container w
  obtain ⟨kept, w', hrun, happrovals⟩ := run_dropExpired env container
    (InMemoryApprovalRepository.listPending w₁.approvals) w₁
  refine ⟨kept, w', ?_, happrovals ▸ hmoves⟩
  simp only [ApprovalService.listPendingRequests, Prog.run_bind, hrun₁, run_ask]
  exact hrun

end MpesaMcp
