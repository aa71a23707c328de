import MpesaMcp.Laws.Executions
import MpesaMcp.Library.Protocol

/-!
# Concurrent reviews

`approve_request` reads a request, adds its operator to the list it has read and saves the whole
record; `reject_request` overwrites the status without looking at it. Between the read and the write
another review may come in, and is lost: a reviewer disappears, a rejected request is approved, or an
approved one is executed twice. `reviews_respected_of_current` says that nothing else goes wrong.
-/

set_option autoImplicit false

namespace MpesaMcp

open Library Python PaymentService

/-! ## The property -/

/-- Programs over one world. -/
abbrev ReviewPool (τ π : Type) := Pool Exn Msg.Answer Reply (World τ π)

/-- The calls that review a request. -/
def Op.Reviews (approvalId : String) (op : Op) : Prop :=
  (∃ operatorId, op = .executeApprovedPayment approvalId operatorId) ∨ op = .rejectRequest approvalId

section Property

variable {τ π : Type}

/-- Calls side by side. -/
def concurrentCalls (env : Env) (container : AppContainer τ π) (ops : List Op) (w : World τ π) :
    ReviewPool τ π where
  state := w
  threads := ops.map (program container env.toRuntime)

/-- The provider is asked once at most, and not at all where a rejection was answered; every operator
whose review was answered is among the reviewers. -/
structure ReviewsRespected (approvalId : String) (ops : List Op) (before after : ReviewPool τ π) :
    Prop where
  once : after.state.initiations.length ≤ before.state.initiations.length + 1
  refused : ∀ (i : Nat) (response : ApprovalServiceResponse),
    after.threads[i]? = some (.ret (.approval response)) → response.status = .rejected →
      after.state.initiations = before.state.initiations
  kept : ∀ (i : Nat) (operatorId : String) (response : ApprovalExecutionResponse),
    ops[i]? = some (.executeApprovedPayment approvalId operatorId) →
    after.threads[i]? = some (.ret (.execution response)) →
    response.status = .partiallyApproved ∨ response.status = .approved →
      ∃ r, after.state.approvals.get approvalId = some r ∧ operatorId ∈ r.reviewerIds

/-- A reading of the clock in this step is before the expiry. -/
def Unexpired (env : Env) (approval : ApprovalRequest) (st : Step (ReviewPool τ π) Nat Unit) : Prop :=
  st.before.message? st.input = some .now →
    env.clock st.before.state.ambient.clockReads < approval.expiresAt

/-- A write of this step knows the stored record: a review is saved over a pending record whose
reviewers it names, and a rejection is stored over a record that is not approved. -/
structure Current (approvalId : String) (st : Step (ReviewPool τ π) Nat Unit) : Prop where
  saves : ∀ approval r, st.before.message? st.input = some (.approvals (.save approval)) →
    st.before.state.approvals.get approvalId = some r →
      r.status = .pending ∧ r.reviewerIds ⊆ approval.reviewerIds
  rejects : ∀ r, st.before.message? st.input = some (.approvals (.updateStatus approvalId .rejected)) →
    st.before.state.approvals.get approvalId = some r → r.status ≠ .approved

/-- Whether the writes of a step know the stored record. -/
def isCurrent (approvalId : String) (st : Step (ReviewPool τ π) Nat Unit) : Bool :=
  match st.before.message? st.input, st.before.state.approvals.get approvalId with
  | some (.approvals (.save approval)), some r =>
    r.status = .pending && r.reviewerIds.all (· ∈ approval.reviewerIds)
  | some (.approvals (.updateStatus other .rejected)), some r =>
    other ≠ approvalId || r.status ≠ .approved
  | _, _ => true

theorem isCurrent_iff {approvalId : String} {st : Step (ReviewPool τ π) Nat Unit} :
    isCurrent approvalId st = true ↔ Current approvalId st := by
  unfold isCurrent
  split
  next approval r hasks hgot =>
    simp only [Bool.and_eq_true, decide_eq_true_eq, List.all_eq_true]
    constructor
    · rintro ⟨hpending, hkeeps⟩
      refine ⟨fun approval' r' hasks' hgot' => ?_, fun r' hasks' => by cases hasks.symm.trans hasks'⟩
      cases hasks.symm.trans hasks'
      cases hgot.symm.trans hgot'
      exact ⟨hpending, hkeeps⟩
    · intro h
      exact h.saves approval r hasks hgot
  next other r hasks hgot =>
    simp only [ne_eq, decide_not, Bool.or_eq_true, Bool.not_eq_true', decide_eq_false_iff_not]
    constructor
    · intro h
      refine ⟨fun approval' r' hasks' => ?_, fun r' hasks' hgot' => ?_⟩
      · cases hasks.symm.trans hasks'
      cases hasks.symm.trans hasks'
      cases hgot.symm.trans hgot'
      exact h.resolve_left (not_not.mpr rfl)
    · intro h
      by_cases hother : other = approvalId
      · subst hother
        exact Or.inr (h.rejects r hasks hgot)
      · exact Or.inl hother
  next hsaves hrejects =>
    simp only [true_iff]
    exact ⟨fun approval r hasks hgot => absurd hgot (hsaves approval r hasks),
      fun r hasks hgot => absurd hgot (hrejects approvalId r hasks)⟩

instance (approvalId : String) (st : Step (ReviewPool τ π) Nat Unit) :
    Decidable (Current approvalId st) :=
  decidable_of_iff _ isCurrent_iff

end Property

/-! ## The protocol of a review -/

/-- How far a call has come. -/
inductive ReviewStage
  /-- Nothing is written. -/
  | undecided
  /-- The review is saved, and others are missing. -/
  | recorded
  /-- The completing review is saved. -/
  | approved
  /-- The provider was asked. -/
  | paid
  /-- The rejection is stored. -/
  | rejected
deriving DecidableEq

/-- The completing review is saved. -/
def ReviewStage.Released (stage : ReviewStage) : Prop := stage = .approved ∨ stage = .paid

/-- The review is saved. -/
def ReviewStage.Recorded (stage : ReviewStage) : Prop := stage = .recorded ∨ stage.Released

/-- What a review of this request may send. -/
def reviewAllows (a : ApprovalRequest) (op? : Option Op) : ReviewStage → Msg → Prop
  | .undecided, .now => True
  | .undecided, .approvals (.get approvalId) => approvalId = a.approvalId
  | .undecided, .approvals (.save approval) =>
    approval.approvalId = a.approvalId ∧ approval.expiresAt = a.expiresAt ∧
      ∀ operatorId, op? = some (.executeApprovedPayment a.approvalId operatorId) →
        operatorId ∈ approval.reviewerIds
  | .undecided, .approvals (.updateStatus approvalId status) =>
    approvalId = a.approvalId ∧ status = .rejected
  | .recorded, .logEvent _ => True
  | .approved, m => m.OfExecution
  | .paid, m => m.OfExecution ∧ m.SparesProvider
  | .rejected, .logEvent _ => True
  | _, _ => False

/-- Where the answers lead: the request is there, and keeps its time of expiry, which is not over. -/
def reviewMoves (a : ApprovalRequest) :
    ReviewStage → (m : Msg) → Except Exn m.Answer → ReviewStage → Prop
  | .undecided, .now, r, stage => stage = .undecided ∧ ∃ now, r = .ok now ∧ now < a.expiresAt
  | .undecided, .approvals (.get _), r, stage =>
    stage = .undecided ∧ ∃ stored, r = .ok (some stored) ∧ stored.approvalId = a.approvalId ∧
      stored.expiresAt = a.expiresAt
  | .undecided, .approvals (.save approval), r, stage =>
    r = .ok approval ∧ stage = if approval.status = .approved then .approved else .recorded
  | .undecided, .approvals (.updateStatus _ _), r, stage =>
    stage = .rejected ∧ ∃ stored, r = .ok (some stored)
  | .approved, .provider _, _, stage => stage = .paid
  | stage, _, _, stage' => stage' = stage

/-- The protocol of a call that reviews a request. -/
def reviewProtocol (a : ApprovalRequest) (op? : Option Op) :
    Protocol Exn Msg.Answer ReviewStage where
  allows := reviewAllows a op?
  moves := reviewMoves a
  raises _ _ := True

/-- An answer tells the stage. -/
structure ReviewReply (stage : ReviewStage) (reply : Reply) : Prop where
  reviewed : ∀ response, reply = .execution response →
    response.status = .partiallyApproved ∨ response.status = .approved → stage.Recorded
  rejected : ∀ response, reply = .approval response → response.status = .rejected →
    stage = .rejected

theorem ReviewReply.execution {stage : ReviewStage} {response : ApprovalExecutionResponse}
    (h : response.status = .partiallyApproved ∨ response.status = .approved → stage.Recorded) :
    ReviewReply stage (.execution response) := by
  constructor
  · rintro _ ⟨⟩
    exact h
  · rintro _ ⟨⟩

theorem ReviewReply.approval {stage : ReviewStage} {response : ApprovalServiceResponse}
    (h : response.status = .rejected → stage = .rejected) :
    ReviewReply stage (.approval response) := by
  constructor
  · rintro _ ⟨⟩
  · rintro _ ⟨⟩
    exact h

section Follows

variable {a : ApprovalRequest} {op? : Option Op}

theorem follows_ask {m : Msg} {Q : ReviewStage → m.Answer → Prop} {stage : ReviewStage}
    (allowed : reviewAllows a op? stage m)
    (h : ∀ answer stage', reviewMoves a stage m (.ok answer) stage' → Q stage' answer) :
    (ask m).Follows (reviewProtocol a op?) Q stage :=
  Prog.follows_send allowed (fun _ _ _ => trivial) h

/-- A request that keeps its time of expiry is not expired. -/
theorem follows_isExpired {b : ApprovalRequest} (expires : b.expiresAt = a.expiresAt) :
    (ApprovalService.isExpired b).Follows (reviewProtocol a op?)
      (fun stage expired => stage = .undecided ∧ expired = false) .undecided := by
  unfold ApprovalService.isExpired
  split
  · refine .bind (Q := fun stage now => stage = .undecided ∧ now < a.expiresAt)
      (follows_ask trivial ?_) ?_
    · rintro _ _ ⟨rfl, now, hnow, hlt⟩
      cases hnow
      exact ⟨rfl, hlt⟩
    · rintro _ now ⟨rfl, hlt⟩
      refine Prog.follows_pure ⟨rfl, decide_eq_false ?_⟩
      rw [expires]
      exact not_le.mpr hlt
  · exact Prog.follows_pure ⟨rfl, rfl⟩

/-- The request is found. -/
theorem follows_get {α : Type} {Q : ReviewStage → α → Prop} {f : Option ApprovalRequest → App α}
    (h : ∀ b, b.approvalId = a.approvalId → b.expiresAt = a.expiresAt →
      (f (some b)).Follows (reviewProtocol a op?) Q .undecided) :
    (ask (.approvals (.get a.approvalId)) >>= f).Follows (reviewProtocol a op?) Q .undecided := by
  refine .bind (Q := fun stage found => stage = .undecided ∧ ∃ b, found = some b ∧
    b.approvalId = a.approvalId ∧ b.expiresAt = a.expiresAt) (follows_ask rfl ?_) ?_
  · rintro _ _ ⟨rfl, b, hb, habout, hexpires⟩
    cases hb
    exact ⟨rfl, b, rfl, habout, hexpires⟩
  · rintro _ _ ⟨rfl, b, rfl, habout, hexpires⟩
    exact h b habout hexpires

/-- The push of a completed request asks the provider once at most. -/
theorem follows_executeStkPush (request : InitiatePayment) (idempotencyKey : String) :
    (executeStkPush request idempotencyKey).Follows (reviewProtocol a op?)
      (fun stage _ => stage.Released) .approved := by
  have hsilent : ∀ {α : Type} {p : App α}, p.Sends (fun m => m.OfExecution ∧ m.SparesProvider) →
      p.Follows (reviewProtocol a op?) (fun stage _ => stage.Released) .paid := by
    intro α p hp
    exact (hp.follows (fun _ => trivial) (fun _ h => h) fun m r s' _ hmove => hmove).mono
      fun _ _ h => Or.inr h
  refine .bind (Q := fun stage _ => stage = ReviewStage.approved)
    (follows_ask trivial fun _ _ hmove => hmove) fun stage found hstage => ?_
  subst hstage
  cases found with
  | some transaction => exact Prog.follows_pure (Or.inl rfl)
  | none =>
    refine .bind (Q := fun stage _ => stage = ReviewStage.paid)
      (Prog.follows_attempt trivial fun _ _ hmove => hmove) fun stage answer hstage => ?_
    subst hstage
    cases answer with
    | error e =>
      exact hsilent (.bind ((sends_ask _).mpr ⟨trivial, trivial⟩) fun _ => trivial)
    | ok response =>
      refine hsilent (.bind ((sends_ask _).mpr ⟨trivial, trivial⟩) fun transaction => ?_)
      exact .bind ((sends_ask _).mpr ⟨trivial, trivial⟩) fun _ =>
        .bind ((sends_ask _).mpr ⟨trivial, trivial⟩) fun _ => trivial

/-- A review saves what it found with its operator added. -/
theorem follows_reviewPending {operatorId : String} {b : ApprovalRequest}
    (about : b.approvalId = a.approvalId) (expires : b.expiresAt = a.expiresAt)
    (pending : b.status = .pending) :
    (ApprovalService.reviewPending a.approvalId operatorId b).Follows
      (reviewProtocol a (some (.executeApprovedPayment a.approvalId operatorId)))
      (fun stage response => (response.status = .partiallyApproved → stage = .recorded) ∧
        (response.status = .approved → stage = .approved)) .undecided := by
  have hallowed : ∀ record : ApprovalRequest, record.approvalId = a.approvalId →
      record.expiresAt = a.expiresAt → record.reviewerIds = b.reviewerIds ++ [operatorId] →
      reviewAllows a (some (.executeApprovedPayment a.approvalId operatorId)) .undecided
        (.approvals (.save record)) := by
    intro record habout hexpires hreviewers
    refine ⟨habout, hexpires, fun other hother => ?_⟩
    cases hother
    rw [hreviewers]
    exact List.mem_append_right _ (List.mem_singleton_self operatorId)
  have hlogged : ∀ stage event, (stage = ReviewStage.recorded ∨ stage = .approved) →
      (ask (.logEvent event)).Follows
        (reviewProtocol a (some (.executeApprovedPayment a.approvalId operatorId)))
        (fun stage' _ => stage' = stage) stage := by
    rintro _ event (rfl | rfl)
    · exact follows_ask trivial fun _ _ hmove => hmove
    · exact follows_ask trivial fun _ _ hmove => hmove
  unfold ApprovalService.reviewPending
  split
  · exact Prog.follows_pure ⟨nofun, nofun⟩
  · refine .bind (Q := fun stage _ => stage = ReviewStage.undecided)
      (follows_ask trivial fun _ _ hmove => hmove.1) fun stage reviewedAt hstage => ?_
    subst hstage
    split
    · refine .bind (Q := fun stage _ => stage = ReviewStage.recorded)
        (follows_ask (hallowed _ about expires rfl) ?_) fun stage approval hstage => ?_
      · rintro _ _ ⟨-, hstage⟩
        rw [hstage, if_neg (by rw [pending]; decide)]
      · subst hstage
        refine .bind (hlogged _ _ (Or.inl rfl)) fun stage _ hstage => ?_
        exact Prog.follows_pure ⟨fun _ => hstage, nofun⟩
    · refine .bind (Q := fun stage _ => stage = ReviewStage.approved)
        (follows_ask (hallowed _ about expires rfl) ?_) fun stage approval hstage => ?_
      · rintro _ _ ⟨-, hstage⟩
        exact hstage
      · subst hstage
        refine .bind (hlogged _ _ (Or.inr rfl)) fun stage _ hstage => ?_
        exact Prog.follows_pure ⟨nofun, fun _ => hstage⟩

/-- The stage in which a review before a payment ends. -/
def reviewEnds (stage : ReviewStage) :
    ApprovalExecutionResponse ⊕ ApprovalServiceResponse × ApprovalRequest → Prop
  | .inl response => ReviewReply stage (.execution response)
  | .inr _ => stage = .approved

/-- Every call of `execute_approved_payment` on the request keeps to the protocol. -/
theorem follows_executeApprovedPayment (operatorId : String) :
    (executeApprovedPayment a.approvalId operatorId).Follows
      (reviewProtocol a (some (.executeApprovedPayment a.approvalId operatorId)))
      (fun stage response => ReviewReply stage (.execution response)) .undecided := by
  rw [executeApprovedPayment_eq]
  refine .bind (Q := reviewEnds) ?_ ?_
  · refine follows_get fun b _ hexpires => ?_
    refine .bind (follows_isExpired hexpires) ?_
    rintro _ _ ⟨rfl, rfl⟩
    simp only [Bool.false_eq_true, if_false]
    split
    · exact Prog.follows_pure (.execution nofun)
    · refine .bind (Q := fun stage response =>
        (response.status = .partiallyApproved → stage = .recorded) ∧
          (response.status = .approved → stage = .approved)) ?_ ?_
      · refine follows_get fun c habout hexpires => ?_
        refine .bind (follows_isExpired hexpires) ?_
        rintro _ _ ⟨rfl, rfl⟩
        simp only [Bool.false_eq_true, if_false]
        split
        · exact Prog.follows_pure ⟨nofun, nofun⟩
        next hpending => exact follows_reviewPending habout hexpires (not_not.mp hpending)
      · rintro stage response ⟨hpartially, happroved⟩
        split
        · exact Prog.follows_pure (.execution nofun)
        · split
          next hstatus =>
            refine Prog.follows_pure (.execution fun hreviewed => ?_)
            exact Or.inl (hpartially (hreviewed.resolve_right hstatus))
          next hstatus => exact Prog.follows_pure (happroved (not_not.mp hstatus))
  · rintro stage (response | ⟨response, approved⟩) hstage
    · exact Prog.follows_pure hstage
    · subst hstage
      refine Prog.Follows.map (Q := fun stage _ => stage.Released) ?_
        fun _ _ h => .execution fun _ => Or.inr h
      unfold executeApprovedStkPush
      split
      · exact Prog.follows_pure (Or.inl rfl)
      · exact follows_executeStkPush _ _

/-- Every call of `reject_request` on the request keeps to the protocol. -/
theorem follows_rejectRequest :
    (ApprovalService.rejectRequest a.approvalId).Follows (reviewProtocol a op?)
      (fun stage response => ReviewReply stage (.approval response)) .undecided := by
  refine follows_get fun b _ hexpires => ?_
  refine .bind (follows_isExpired hexpires) ?_
  rintro _ _ ⟨rfl, rfl⟩
  refine .bind (Q := fun stage _ => stage = ReviewStage.rejected)
    (follows_ask ⟨rfl, rfl⟩ fun _ _ hmove => hmove.1) fun stage updated hstage => ?_
  subst hstage
  cases updated with
  | none => exact Prog.follows_pure (.approval nofun)
  | some approval =>
    refine .bind (Q := fun stage _ => stage = ReviewStage.rejected)
      (follows_ask trivial fun _ _ hmove => hmove) fun stage _ hstage => ?_
    exact Prog.follows_pure (.approval fun _ => hstage)

/-- Every call that reviews the request keeps to the protocol. -/
theorem follows_program {τ π : Type} (container : AppContainer τ π) (py : Runtime) {op : Op}
    (reviews : op.Reviews a.approvalId) :
    (program container py op).Follows (reviewProtocol a (some op)) ReviewReply .undecided := by
  rcases reviews with ⟨operatorId, rfl⟩ | rfl
  · exact (follows_executeApprovedPayment operatorId).map fun _ _ h => h
  · exact follows_rejectRequest.map fun _ _ h => h

end Follows

/-! ## The invariant -/

section Invariant

variable {τ π : Type} {env : Env} {container : AppContainer τ π} {a r : ApprovalRequest}
  {ops : List Op} {calls : List Initiation} {w w' : World τ π} {stages : Nat → ReviewStage} {i : Nat}

/-- The stored record `r` shows what the calls have come to, and so does the record of provider calls,
which was `calls` at the start. -/
structure ReviewsStored (a r : ApprovalRequest) (ops : List Op) (calls : List Initiation)
    (w : World τ π) (stages : Nat → ReviewStage) : Prop where
  stored : w.approvals.get a.approvalId = some r
  expires : r.expiresAt = a.expiresAt
  named : ∀ i operatorId, (stages i).Recorded →
    ops[i]? = some (.executeApprovedPayment a.approvalId operatorId) → operatorId ∈ r.reviewerIds
  approved : ∀ i, (stages i).Released → r.status = .approved
  single : ∀ i j, (stages i).Released → (stages j).Released → i = j
  rejected : ∀ i, stages i = .rejected → r.status = .rejected
  asked : w.initiations = calls ∨
    ∃ i call, stages i = .paid ∧ w.initiations = calls ++ [call]

/-- A message that changes neither the requests nor the record of calls. -/
theorem ReviewsStored.quiet (h : ReviewsStored a r ops calls w stages)
    (approvals : w'.approvals = w.approvals) (initiations : w'.initiations = w.initiations) :
    ReviewsStored a r ops calls w' (Function.update stages i (stages i)) := by
  rw [Function.update_eq_self]
  exact ⟨approvals ▸ h.stored, h.expires, h.named, h.approved, h.single, h.rejected,
    initiations ▸ h.asked⟩

/-- While the record is not approved, no call is released and the provider was not asked. -/
theorem ReviewsStored.unreleased (h : ReviewsStored a r ops calls w stages)
    (undecided : r.status ≠ .approved) :
    (∀ j, ¬ (stages j).Released) ∧ w.initiations = calls := by
  refine ⟨fun j hj => undecided (h.approved j hj), ?_⟩
  refine h.asked.resolve_right ?_
  rintro ⟨j, call, hpaid, -⟩
  exact undecided (h.approved j (Or.inr hpaid))

/-- A review saved over a pending record whose reviewers it names. -/
theorem ReviewsStored.save (h : ReviewsStored a r ops calls w stages) {record : ApprovalRequest}
    (about : record.approvalId = a.approvalId) (expires : record.expiresAt = a.expiresAt)
    (operator : ∀ operatorId, ops[i]? = some (.executeApprovedPayment a.approvalId operatorId) →
      operatorId ∈ record.reviewerIds)
    (pending : r.status = .pending) (keeps : r.reviewerIds ⊆ record.reviewerIds)
    (approvals : w'.approvals = w.approvals.put record) (initiations : w'.initiations = w.initiations) :
    ReviewsStored a record ops calls w' (Function.update stages i
      (if record.status = .approved then .approved else .recorded)) := by
  obtain ⟨hunreleased, hcalls⟩ := h.unreleased (by rw [pending]; decide)
  have hreleased : ∀ j, (Function.update stages i
      (if record.status = .approved then .approved else .recorded) j).Released →
      j = i ∧ record.status = .approved := by
    intro j hj
    by_cases hji : j = i
    · subst hji
      rw [Function.update_self] at hj
      by_cases happroved : record.status = .approved
      · exact ⟨rfl, happroved⟩
      · rw [if_neg happroved] at hj
        rcases hj with hj | hj <;> cases hj
    · rw [Function.update_of_ne hji] at hj
      exact absurd hj (hunreleased j)
  refine ⟨?_, expires, fun j operatorId hj hop => ?_, fun j hj => (hreleased j hj).2,
    fun j k hj hk => (hreleased j hj).1.trans (hreleased k hk).1.symm, fun j hj => ?_,
    Or.inl (initiations.trans hcalls)⟩
  · rw [approvals]
    exact Keyed.get_put_of_eq _ about
  · by_cases hji : j = i
    · subst hji
      exact operator operatorId hop
    · rw [Function.update_of_ne hji] at hj
      exact keeps (h.named j operatorId hj hop)
  · by_cases hji : j = i
    · subst hji
      rw [Function.update_self] at hj
      split at hj <;> cases hj
    · rw [Function.update_of_ne hji] at hj
      cases pending.symm.trans (h.rejected j hj)

/-- A rejection stored over a record that is not approved. -/
theorem ReviewsStored.reject (h : ReviewsStored a r ops calls w stages) {now : Datetime}
    (undecided : r.status ≠ .approved)
    (approvals : w'.approvals = w.approvals.put (r.withStatus .rejected now))
    (initiations : w'.initiations = w.initiations) :
    ReviewsStored a (r.withStatus .rejected now) ops calls w' (Function.update stages i .rejected) := by
  obtain ⟨hunreleased, hcalls⟩ := h.unreleased undecided
  have hreleased : ∀ j, ¬ (Function.update stages i ReviewStage.rejected j).Released := by
    intro j hj
    by_cases hji : j = i
    · subst hji
      rw [Function.update_self] at hj
      rcases hj with hj | hj <;> cases hj
    · rw [Function.update_of_ne hji] at hj
      exact hunreleased j hj
  refine ⟨?_, h.expires, fun j operatorId hj hop => ?_, fun j hj => absurd hj (hreleased j),
    fun j k hj => absurd hj (hreleased j), fun j hj => ApprovalRequest.status_withStatus _ _ _,
    Or.inl (initiations.trans hcalls)⟩
  · rw [approvals]
    exact Keyed.get_put_of_eq _
      ((ApprovalRequest.approvalId_withStatus _ _ _).trans (Keyed.key_of_get h.stored))
  · by_cases hji : j = i
    · subst hji
      rw [Function.update_self] at hj
      rcases hj with hj | hj | hj <;> cases hj
    · rw [Function.update_of_ne hji] at hj
      exact h.named j operatorId hj hop

/-- The released call asks the provider. -/
theorem ReviewsStored.ask (h : ReviewsStored a r ops calls w stages) (here : stages i = .approved)
    {call : Initiation} (approvals : w'.approvals = w.approvals)
    (initiations : w'.initiations = w.initiations ++ [call]) :
    ReviewsStored a r ops calls w' (Function.update stages i .paid) := by
  have hi : (stages i).Released := Or.inl here
  have hreleased : ∀ j, (Function.update stages i ReviewStage.paid j).Released →
      (stages j).Released := by
    intro j hj
    by_cases hji : j = i
    · exact hji ▸ hi
    · rwa [Function.update_of_ne hji] at hj
  have hcalls : w.initiations = calls := by
    refine h.asked.resolve_right ?_
    rintro ⟨j, _, hpaid, -⟩
    cases h.single i j hi (Or.inr hpaid)
    cases here.symm.trans hpaid
  refine ⟨approvals ▸ h.stored, h.expires, fun j operatorId hj hop => ?_,
    fun j hj => h.approved j (hreleased j hj),
    fun j k hj hk => h.single j k (hreleased j hj) (hreleased k hk), fun j hj => ?_,
    Or.inr ⟨i, call, Function.update_self _ _ _, hcalls ▸ initiations⟩⟩
  · by_cases hji : j = i
    · exact h.named j operatorId (hji ▸ Or.inr hi) hop
    · rw [Function.update_of_ne hji] at hj
      exact h.named j operatorId hj hop
  · by_cases hji : j = i
    · subst hji
      rw [Function.update_self] at hj
      cases hj
    · rw [Function.update_of_ne hji] at hj
      exact h.rejected j hj

/-- One message of a review that has not decided, in a step that knows the stored record: it reads the
record, or stops at what it read, or comes to its decision. -/
theorem ReviewsStored.step_undecided {pool : ReviewPool τ π} {m : Msg}
    (unexpired : Unexpired env a (stepAt (Pool.step (handle env container)) pool i))
    (current : Current a.approvalId (stepAt (Pool.step (handle env container)) pool i))
    (asks : pool.message? i = some m) (h : ReviewsStored a r ops calls pool.state stages)
    (here : stages i = .undecided) (allowed : reviewAllows a ops[i]? .undecided m) :
    ∃ s, reviewMoves a .undecided m (handle env container m pool.state).1 s ∧
      ∃ r, ReviewsStored a r ops calls (handle env container m pool.state).2
        (Function.update stages i s) := by
  have hasks : (stepAt (Pool.step (handle env container)) pool i).before.message?
      (stepAt (Pool.step (handle env container)) pool i).input = some m := asks
  cases m with
  | now =>
    refine ⟨.undecided, ⟨rfl, _, rfl, unexpired hasks⟩, r, ?_⟩
    rw [← here]
    exact h.quiet rfl rfl
  | approvals m =>
    cases m with
    | get approvalId =>
      cases allowed
      refine ⟨.undecided, ⟨rfl, r, congrArg Except.ok h.stored, Keyed.key_of_get h.stored, h.expires⟩,
        r, ?_⟩
      rw [← here]
      exact h.quiet rfl rfl
    | save record =>
      obtain ⟨habout, hexpires, hoperator⟩ := allowed
      obtain ⟨hpending, hkeeps⟩ := current.saves record r hasks h.stored
      exact ⟨_, ⟨rfl, rfl⟩, record, h.save habout hexpires hoperator hpending hkeeps rfl rfl⟩
    | updateStatus approvalId status =>
      obtain ⟨rfl, rfl⟩ := allowed
      have hundecided := current.rejects r hasks h.stored
      rw [handle_updateStatus env container h.stored]
      exact ⟨.rejected, ⟨rfl, _, rfl⟩, _, h.reject hundecided rfl rfl⟩
    | create args => exact absurd allowed id
    | listPending => exact absurd allowed id
  | _ => exact absurd allowed id

/-- One message of a review, in a step that knows the stored record: what a review saves is the record
that it read with its own review added, and in such a step this is the record stored, so no other
review is lost. -/
theorem ReviewsStored.step {pool : ReviewPool τ π} {m : Msg}
    (unexpired : Unexpired env a (stepAt (Pool.step (handle env container)) pool i))
    (current : Current a.approvalId (stepAt (Pool.step (handle env container)) pool i))
    (asks : pool.message? i = some m) (h : ∃ r, ReviewsStored a r ops calls pool.state stages)
    (allowed : reviewAllows a ops[i]? (stages i) m) :
    ∃ s, reviewMoves a (stages i) m (handle env container m pool.state).1 s ∧
      ∃ r, ReviewsStored a r ops calls (handle env container m pool.state).2
        (Function.update stages i s) := by
  obtain ⟨r, h⟩ := h
  -- a message of a payment does not touch the requests
  have hpays : ∀ stage, stages i = stage → m.OfExecution → m.SparesProvider →
      ∃ r, ReviewsStored a r ops calls (handle env container m pool.state).2
        (Function.update stages i stage) := by
    rintro _ rfl hpayment hspares
    exact ⟨r, h.quiet (handle_approvals env container hpayment.sparesApprovals pool.state)
      (handle_initiations env container hspares pool.state)⟩
  cases hstage : stages i with
  | undecided =>
    rw [hstage] at allowed
    exact h.step_undecided unexpired current asks hstage allowed
  | recorded =>
    rw [hstage] at allowed
    cases m with
    | logEvent event => exact ⟨.recorded, rfl, hpays _ hstage trivial trivial⟩
    | _ => exact absurd allowed id
  | approved =>
    rw [hstage] at allowed
    cases m with
    | provider m =>
      cases m with
      | initiatePayment args => exact ⟨.paid, rfl, r, h.ask hstage rfl rfl⟩
      | checkTransactionStatus reference => exact absurd allowed id
    | transactions m => exact ⟨.approved, rfl, hpays _ hstage allowed trivial⟩
    | logEvent event => exact ⟨.approved, rfl, hpays _ hstage allowed trivial⟩
    | increment counter => exact ⟨.approved, rfl, hpays _ hstage allowed trivial⟩
    | _ => exact absurd allowed id
  | paid =>
    rw [hstage] at allowed
    exact ⟨.paid, rfl, hpays _ hstage allowed.1 allowed.2⟩
  | rejected =>
    rw [hstage] at allowed
    cases m with
    | logEvent event => exact ⟨.rejected, rfl, hpays _ hstage trivial trivial⟩
    | _ => exact absurd allowed id

end Invariant

/-! ## The theorem -/

section Theorem

variable {τ π : Type} {env : Env} {container : AppContainer τ π} {a : ApprovalRequest} {ops : List Op}
  {w : World τ π}

/-- **Reviews**: where every write of a run knows the record it goes over, concurrent reviews of one
unexpired request, in any order of their messages, ask the provider once at most, never about a rejected
request, and lose no reviewer. -/
theorem reviews_respected_of_current (stored : w.approvals.get a.approvalId = some a)
    (reviews : ∀ op ∈ ops, op.Reviews a.approvalId) (schedule : List Nat) :
    let pool := concurrentCalls env container ops w
    let step := Pool.step (handle env container)
    (∀ st ∈ trace step pool schedule, Unexpired env a st) →
      (∀ st ∈ trace step pool schedule, Current a.approvalId st) →
        ReviewsRespected a.approvalId ops pool (final step pool schedule) := by
  intro pool step unexpired current
  have hstart : ReviewsStored a a ops w.initiations w fun _ => .undecided := by
    refine ⟨stored, rfl, fun i operatorId hi => ?_, fun i hi => ?_, fun i j hi => ?_, nofun, Or.inl rfl⟩
    · rcases hi with hi | hi | hi <;> cases hi
    · rcases hi with hi | hi <;> cases hi
    · rcases hi with hi | hi <;> cases hi
  have hfollow : Pool.Follow (fun i => reviewProtocol a ops[i]?) (fun _ => ReviewReply) pool
      fun _ => .undecided := by
    intro i p hi
    rw [show pool.threads = ops.map (program container env.toRuntime) from rfl,
      List.getElem?_map, Option.map_eq_some_iff] at hi
    obtain ⟨op, hop, rfl⟩ := hi
    simp only [hop]
    exact follows_program container env.toRuntime (reviews op (List.mem_of_getElem? hop))
  obtain ⟨stages, ⟨r, h⟩, hends⟩ := Pool.follows_final
    (C := fun st => Unexpired env a st ∧ Current a.approvalId st)
    (I := fun w' stages => ∃ r, ReviewsStored a r ops w.initiations w' stages)
    (fun pool i m stages hC hasks hI hallowed => ReviewsStored.step hC.1 hC.2 hasks hI hallowed)
    ⟨a, hstart⟩ hfollow schedule fun st hst => ⟨unexpired st hst, current st hst⟩
  refine ⟨?_, fun i response hi hrejected => ?_, fun i operatorId response hop hi hreviewed => ?_⟩
  · rcases h.asked with hcalls | ⟨i, call, -, hcalls⟩
    · exact Nat.le_succ_of_le (Nat.le_of_eq (congrArg List.length hcalls))
    · exact Nat.le_of_eq ((congrArg List.length hcalls).trans (List.length_append ..))
  · have hrow := h.rejected i ((hends i _ hi).rejected response rfl hrejected)
    exact (h.unreleased (by rw [hrow]; decide)).2
  · exact ⟨r, h.stored, h.named i operatorId ((hends i _ hi).reviewed response rfl hreviewed) hop⟩

end Theorem

/-! ## A review beside another call -/

/-- A world in which a payment of 20000 shillings waits for one review. -/
def paymentFiled : World Transactions Unit :=
  final (step .still (.mock {})) (start Keyed.empty ()) [
    .initiateStkPush ⟨some "254700000000", some 20000, "order", "goods", some "key"⟩]

/-- Two reviews, one behind the other: the second comes upon an approved request. -/
theorem reviews_respected_of_current_serial :
    let ops := [Op.executeApprovedPayment "1" "alice", .executeApprovedPayment "1" "bob"]
    let pool := concurrentCalls .still (.mock {}) ops paymentFiled
    ReviewsRespected "1" ops pool (final (Pool.step (handle .still (.mock {}))) pool
      (List.replicate 12 0 ++ [1])) := by
  intro ops pool
  have hreviews : ∀ op ∈ ops, op.Reviews "1" := by
    intro op hop
    rcases List.mem_cons.mp hop with rfl | hop
    · exact Or.inl ⟨"alice", rfl⟩
    · cases List.mem_singleton.mp hop
      exact Or.inl ⟨"bob", rfl⟩
  obtain ⟨a, hstored, habout, hexpires⟩ : ∃ a, paymentFiled.approvals.get "1" = some a ∧
      a.approvalId = "1" ∧ Datetime.epoch < a.expiresAt := ⟨_, rfl, rfl, by decide +kernel⟩
  have h := @reviews_respected_of_current _ _ .still (.mock {}) a ops paymentFiled
    (habout ▸ hstored) (habout ▸ hreviews) (List.replicate 12 0 ++ [1]) (fun st _ _ => hexpires)
  rw [habout] at h
  exact h (by decide +kernel)

/-- A `reject_request` answered "rejected". -/
def answersRejected : App Reply → Bool
  | .ret (.approval response) => response.status = .rejected
  | _ => false

theorem answersRejected_iff {p : App Reply} : answersRejected p = true ↔
    ∃ response, p = .ret (.approval response) ∧ response.status = .rejected := by
  constructor
  · intro h
    cases p with
    | ret reply =>
      cases reply with
      | approval response => exact ⟨response, rfl, of_decide_eq_true h⟩
      | _ => cases h
    | _ => cases h
  · rintro ⟨response, rfl, hstatus⟩
    exact decide_eq_true hstatus

/-- A rejection between the read of a reviewer and its save: it is answered, and the payment goes on. -/
theorem rejected_request_paid :
    let ops := [Op.executeApprovedPayment "1" "alice", .rejectRequest "1"]
    let pool := concurrentCalls .still (.mock {}) ops paymentFiled
    let schedule := [0, 0, 0, 0, 0, 1, 1, 1, 1, 0, 0, 0, 0]
    let step := Pool.step (handle .still (.mock {}))
    (∃ a, paymentFiled.approvals.get "1" = some a ∧
      ∀ st ∈ trace step pool schedule, Unexpired .still a st) ∧
    ¬ ReviewsRespected "1" ops pool (final step pool schedule) := by
  intro ops pool schedule step
  have hexpires : ∃ a, paymentFiled.approvals.get "1" = some a ∧ Datetime.epoch < a.expiresAt :=
    ⟨_, rfl, by decide +kernel⟩
  obtain ⟨a, hstored, hexpires⟩ := hexpires
  refine ⟨⟨a, hstored, fun st _ _ => hexpires⟩, fun h => ?_⟩
  have hanswered : ((final step pool schedule).threads[1]?.any answersRejected) = true := by
    decide +kernel
  obtain ⟨p, hp, hrejects⟩ := Option.any_eq_true .. |>.mp hanswered
  obtain ⟨response, rfl, hstatus⟩ := answersRejected_iff.mp hrejects
  have hcalls := congrArg List.length (h.refused 1 response hp hstatus)
  exact absurd hcalls (by decide +kernel)

end MpesaMcp
