import MpesaMcp.Laws.Executions
import MpesaMcp.Laws.McpClients
import MpesaMcp.Laws.Pushes
import MpesaMcp.Laws.RepositoryAgreement
import Mathlib.Data.ENat.Lattice

/-!
# How many operators a payment takes

`reviewBurden` is the least number of operators whose reviews stand behind a call of `initiate_payment`
for an amount, over all runs. It is none up to the limit, and the number of reviewers that the approval
service requires above it (`reviewBurden_eq`), so it grows with the amount exactly where no fewer
reviewers are required from the threshold on (`review_burden_monotone_iff`).
-/

set_option autoImplicit false

namespace MpesaMcp

open Library Python PaymentService

/-! ## The number of reviewers -/

/-- The operator whose review an operation takes. -/
def Op.operator? : Op → Option String
  | .executeApprovedPayment _ operatorId => some operatorId
  | .approveRequest _ operatorId => some operatorId
  | _ => none

/-- The operators whose reviews some operations take. -/
def operatorsOf (ops : List Op) : Finset String := (ops.filterMap Op.operator?).toFinset

/-- A run from empty approvals. -/
structure Run (τ π : Type) where
  env : Env
  transactions : τ
  provider : π
  ops : List Op

namespace Run

variable {τ π : Type} (self : Run τ π)

/-- The state it ends in. -/
def final (container : AppContainer τ π) : World τ π :=
  Library.final (step self.env container) (start self.transactions self.provider) self.ops

/-- The provider is called for this amount. -/
def Pays (container : AppContainer τ π) (amount : Int) : Prop :=
  ∃ call ∈ (self.final container).initiations, call.request.amount = amount

end Run

/-- The number of operators without whose reviews no call is made for the amount. -/
noncomputable def reviewBurden {τ π : Type} (container : AppContainer τ π) (amount : Int) : ℕ∞ :=
  ⨅ run : Run τ π, ⨅ _ : run.Pays container amount, ((operatorsOf run.ops).card : ℕ∞)

/-- The reviewers that the service requires for the amount. -/
def ApprovalService.reviewersFor (self : ApprovalService) (amount : Int) : Int :=
  if self.highRiskAmountThreshold ≤ amount then self.highRiskRequiredReviewers
  else self.requiredReviewers

/-- At some time, a request that the service files is not expired. -/
def ApprovalService.Opens (self : ApprovalService) : Prop :=
  ∃ now expiresAt, Datetime.addMinutes now self.expiryMinutes = some expiresAt ∧ now < expiresAt

/-- Its requests are open where they live for some minutes, and for no longer than there are dates. -/
theorem ApprovalService.opens_iff (self : ApprovalService) :
    self.Opens ↔ 0 < self.expiryMinutes ∧ self.expiryMinutes ≤ 5258964959 := by
  constructor
  · rintro ⟨now, expiresAt, hfiled, early⟩
    obtain ⟨t, hfirst, hlast⟩ := now
    simp only [Datetime.addMinutes] at hfiled
    split_ifs at hfiled with hrange hdate
    cases hfiled
    have hlt : t < t + self.expiryMinutes * 60000000 := early
    constructor <;> omega
  · rintro ⟨hpos, hle⟩
    refine ⟨⟨-62135596800000000, by decide⟩,
      ⟨-62135596800000000 + self.expiryMinutes * 60000000, by omega, by omega⟩, ?_, ?_⟩
    · have hrange : -999999999 * 1440 ≤ self.expiryMinutes ∧
          self.expiryMinutes < 1000000000 * 1440 := by omega
      have hdate : -62135596800000000 ≤ -62135596800000000 + self.expiryMinutes * 60000000 ∧
          -62135596800000000 + self.expiryMinutes * 60000000 ≤ 253402300799999999 := by omega
      simp only [Datetime.addMinutes]
      rw [if_pos hrange, dif_pos hdate]
    · show (-62135596800000000 : Int) < -62135596800000000 + self.expiryMinutes * 60000000
      omega

instance (self : ApprovalService) : Decidable self.Opens := decidable_of_iff _ self.opens_iff.symm

/-! ## Stored requests -/

/-- A stored request requires what its payload does, and distinct operators have reviewed it; it was
filed at an earlier reading of the clock. -/
structure ReviewedAmong (env : Env) (service : ApprovalService) (operators : Finset String)
    (reads : Nat) (a : ApprovalRequest) : Prop where
  required : a.requiredReviewers = service.requiredReviewersForPayload a.payload
  distinct : a.reviewerIds.Nodup
  among : ∀ operatorId ∈ a.reviewerIds, operatorId ∈ operators
  filed : ∃ k < reads, Datetime.addMinutes (env.clock k) service.expiryMinutes = some a.expiresAt

/-- Every stored request is as `ReviewedAmong` says. -/
def AllReviewed (env : Env) (service : ApprovalService) (operators : Finset String) (reads : Nat)
    (approvals : Approvals) : Prop :=
  ∀ approvalId a, approvals.get approvalId = some a → ReviewedAmong env service operators reads a

@[simp] theorem expiresAt_withStatus (a : ApprovalRequest) (s : ApprovalStatus) (t : Datetime) :
    (a.withStatus s t).expiresAt = a.expiresAt := by
  unfold ApprovalRequest.withStatus
  split <;> rfl

section Requests

variable {env : Env} {service : ApprovalService} {operators operators' : Finset String}
  {reads reads' : Nat} {a : ApprovalRequest}

namespace ReviewedAmong

theorem mono (h : ReviewedAmong env service operators reads a) (sub : operators ⊆ operators')
    (le : reads ≤ reads') : ReviewedAmong env service operators' reads' a := by
  obtain ⟨k, hk, hfiled⟩ := h.filed
  exact ⟨h.required, h.distinct, fun operatorId hmem => sub (h.among operatorId hmem),
    k, Nat.lt_of_lt_of_le hk le, hfiled⟩

/-- A change of status adds no reviewer. -/
theorem withStatus (h : ReviewedAmong env service operators reads a) (status : ApprovalStatus)
    (now : Datetime) : ReviewedAmong env service operators reads (a.withStatus status now) := by
  constructor
  · simpa using h.required
  · simpa using h.distinct
  · simpa using h.among
  · simpa using h.filed

/-- A review that falls short adds its operator, whom nobody may have counted before. -/
theorem reviewedBy (h : ReviewedAmong env service operators reads a) {operatorId : String}
    (unseen : operatorId ∉ a.reviewerIds) (mem : operatorId ∈ operators) (now : Datetime) :
    ReviewedAmong env service operators reads (a.reviewedBy operatorId now) := by
  refine ⟨h.required, ?_, ?_, h.filed⟩
  · exact h.distinct.append (List.nodup_singleton operatorId) (by simpa using unseen)
  · intro other hother
    rcases List.mem_append.mp hother with hold | hnew
    · exact h.among other hold
    · rw [List.mem_singleton.mp hnew]
      exact mem

/-- The review that approves adds its operator, whom nobody may have counted before. -/
theorem approvedBy (h : ReviewedAmong env service operators reads a) {operatorId : String}
    (unseen : operatorId ∉ a.reviewerIds) (mem : operatorId ∈ operators) (now : Datetime) :
    ReviewedAmong env service operators reads (a.approvedBy operatorId now) := by
  obtain ⟨hrequired, hdistinct, hamong, hfiled⟩ := h.reviewedBy unseen mem now
  exact ⟨hrequired, hdistinct, hamong, hfiled⟩

/-- A completed review has as many operators behind it as its payment requires, and its request was
open. -/
theorem enough (h : ReviewedAmong env service operators reads a) {operatorId : String}
    (unseen : operatorId ∉ a.reviewerIds) (mem : operatorId ∈ operators)
    (complete : a.requiredReviewers ≤ (a.reviewerIds.length : Int) + 1) {request : InitiatePayment}
    {key : String} (payload : executablePayload a.payload = some (request, key)) :
    max 1 (service.reviewersFor request.amount) ≤ (operators.card : Int) := by
  have hreviewed := h.reviewedBy unseen mem (env.clock 0)
  have hcard : a.reviewerIds.length + 1 ≤ operators.card := by
    have hsub : (a.reviewerIds ++ [operatorId]).toFinset ⊆ operators := by
      intro other hother
      exact hreviewed.among other (List.mem_toFinset.mp hother)
    have hdistinct : (a.reviewerIds ++ [operatorId]).Nodup := hreviewed.distinct
    have hle := Finset.card_le_card hsub
    rwa [List.toFinset_card_of_nodup hdistinct, List.length_append] at hle
  have hrequired : a.requiredReviewers = service.reviewersFor request.amount := by
    rw [h.required, ApprovalService.requiredReviewersForPayload, executablePayload_amount payload]
    rfl
  omega

/-- A request that is reviewed before its expiry was open when it was filed. -/
theorem opens (h : ReviewedAmong env service operators reads a) {k : Nat} (later : reads ≤ k)
    (early : env.clock k < a.expiresAt) : service.Opens := by
  obtain ⟨i, hi, hfiled⟩ := h.filed
  exact ⟨env.clock i, a.expiresAt, hfiled,
    lt_of_le_of_lt (env.clock_mono (le_trans (Nat.le_of_lt hi) later)) early⟩

/-- A first review by one of the operators keeps it. -/
theorem keptBy {operatorId : String} (mem : operatorId ∈ operators) :
    KeptBy operatorId (ReviewedAmong env service operators reads) where
  withStatus _ status now h := h.withStatus status now
  reviewedBy _ now unseen h := h.reviewedBy unseen mem now
  approvedBy _ now unseen h := h.approvedBy unseen mem now

end ReviewedAmong

namespace AllReviewed

variable {approvals : Approvals}

theorem mono (h : AllReviewed env service operators reads approvals) (sub : operators ⊆ operators')
    (le : reads ≤ reads') : AllReviewed env service operators' reads' approvals :=
  fun approvalId a stored => (h approvalId a stored).mono sub le

end AllReviewed

end Requests

/-! ## One step -/

section Step

variable {τ π : Type} {env : Env} {container : AppContainer τ π} {operators : Finset String}

/-- The request that a payment above the limit files. -/
theorem run_filing (env : Env) (container : AppContainer τ π) (decision : PolicyDecision)
    (request : InitiatePayment) (key : String) {w : World τ π} {expiresAt : Datetime}
    (opens : Datetime.addMinutes (env.clock w.ambient.clockReads)
      container.settings.approvalExpiryMinutes = some expiresAt) :
    ∃ response w', Prog.run (handle env container)
        (container.paymentService.requireApproval decision request key) w = (.ok response, w') ∧
      w'.ambient.clockReads = w.ambient.clockReads + 2 ∧
      w'.approvals = w.approvals.put (CreateApproval.record {
          action := "initiate_stk_push"
          payload := approvalPayload request key
          reason := decision.reason
          expiresAt := expiresAt
          requiredReviewers := container.approvalService.requiredReviewersForPayload
            (approvalPayload request key) }
        (env.uuid4 w.ambient.uuidDraws) (env.clock (w.ambient.clockReads + 1))) ∧ w.Idle w' := by
  have hopen : Datetime.addMinutes (env.clock w.ambient.clockReads)
      container.paymentService.approvalService.expiryMinutes = some expiresAt := opens
  simp only [PaymentService.requireApproval, ApprovalService.createApprovalRequest, Prog.run_bind,
    run_ask, handle_now, hopen]
  simp only [run_ask, handle, InMemoryApprovalRepository.answer, InMemoryApprovalRepository.create,
    ApprovalService.logAuditEvent, Prog.run_pure]
  exact ⟨_, _, rfl, rfl, rfl, rfl, rfl⟩

/-- A request is created without reviewers, and asks for as many as the rules say for its amount. -/
theorem reviewed_initiateStkPush (args : InitiateStkPush) {w : World τ π}
    (h : AllReviewed env container.approvalService operators w.ambient.clockReads w.approvals) :
    let w' := (step env container (.initiateStkPush args) w).2
    AllReviewed env container.approvalService operators w'.ambient.clockReads w'.approvals := by
  intro w'
  have hforward : w.ambient.clockReads ≤ w'.ambient.clockReads :=
    (run_forward env container _ w).clockReads
  have hafter : w' = (Prog.run (handle env container)
      (container.paymentService.initiateStkPush env.toRuntime args) w).2 := by
    simp only [w', step, program, Prog.run_map]
  have hprogram := initiation_program env container args
  rw [hafter] at hforward ⊢
  generalize container.paymentService.initiateStkPush env.toRuntime args = p at hprogram hforward ⊢
  cases hprogram with
  | pays request =>
    rw [run_approvals env container ((sends_executeStkPush _ _).mono
      fun _ => Msg.OfExecution.sparesApprovals) w]
    exact h.mono (Finset.Subset.refl _) hforward
  | refuses response => exact h
  | files decision request =>
    cases hopen : Datetime.addMinutes (env.clock w.ambient.clockReads)
        container.settings.approvalExpiryMinutes with
    | none =>
      have hnone : Datetime.addMinutes (env.clock w.ambient.clockReads)
        container.paymentService.approvalService.expiryMinutes = none := hopen
      simp only [PaymentService.requireApproval, ApprovalService.createApprovalRequest, Prog.run_bind,
        run_ask, handle_now, hnone, Prog.run_raise] at hforward ⊢
      exact h.mono (Finset.Subset.refl _) hforward
    | some expiresAt =>
      obtain ⟨response, v, hrun, hreads, hput, -⟩ := run_filing env container decision request
        (keyFor env.toRuntime args request) hopen
      rw [hrun] at hforward ⊢
      rw [hput]
      refine Stored.put (h.mono (Finset.Subset.refl _) hforward) ⟨rfl, List.nodup_nil, ?_, ?_⟩
      · intro operatorId hmem
        cases hmem
      refine ⟨w.ambient.clockReads, ?_, hopen⟩
      show w.ambient.clockReads < v.ambient.clockReads
      omega

/-- **The step lemma**: a step adds only reviews of its operator, to a request that is not due;
everything else keeps the reviewers of every request. -/
theorem reviewed_step (op : Op) {w : World τ π}
    (h : AllReviewed env container.approvalService operators w.ambient.clockReads w.approvals)
    (mem : ∀ operatorId, op.operator? = some operatorId → operatorId ∈ operators) :
    AllReviewed env container.approvalService operators
      (step env container op w).2.ambient.clockReads (step env container op w).2.approvals := by
  have hforward : w.ambient.clockReads ≤ (step env container op w).2.ambient.clockReads :=
    (run_forward env container _ w).clockReads
  have spared : (program container env.toRuntime op).Sends Msg.SparesApprovals →
      AllReviewed env container.approvalService operators
        (step env container op w).2.ambient.clockReads (step env container op w).2.approvals := by
    intro sends
    have hsame : (step env container op w).2.approvals = w.approvals :=
      run_approvals env container sends w
    rw [hsame]
    exact h.mono (Finset.Subset.refl _) hforward
  have later : AllReviewed env container.approvalService operators w.ambient.clockReads
      (step env container op w).2.approvals → AllReviewed env container.approvalService operators
        (step env container op w).2.ambient.clockReads (step env container op w).2.approvals :=
    fun hw => hw.mono (Finset.Subset.refl _) hforward
  have reading : (program container env.toRuntime op).Sends Msg.OfReading → _ := fun sends =>
    spared (sends.mono fun _ => Msg.OfReading.sparesApprovals)
  cases op with
  | initiateStkPush args => exact reviewed_initiateStkPush args h
  | executeApprovedPayment approvalId operatorId =>
    refine later ?_
    rw [step_after env container rfl rfl]
    exact Stored.executeApprovedPayment env container (ReviewedAmong.keptBy (mem operatorId rfl))
      approvalId h
  | approveRequest approvalId operatorId =>
    refine later ?_
    rw [step_after env container rfl rfl]
    exact Stored.approveRequest env container (ReviewedAmong.keptBy (mem operatorId rfl)) approvalId h
  | rejectRequest approvalId =>
    refine later ?_
    rw [step_after env container rfl rfl]
    exact Stored.rejectRequest env container (fun _ status now ha => ha.withStatus status now)
      approvalId h
  | expireStaleApprovals =>
    obtain ⟨count, w', hrun, hmoves⟩ := run_expireStaleApprovals env container w
    refine later ?_
    rw [step_after env container rfl hrun]
    exact Stored.expires h (fun _ status now ha => ha.withStatus status now) hmoves
  | listPendingRequests =>
    obtain ⟨approvals, w', hrun, hmoves⟩ := run_listPendingRequests env container w
    refine later ?_
    rw [step_after env container rfl hrun]
    exact Stored.expires h (fun _ status now ha => ha.withStatus status now) hmoves
  | savePendingTransaction args => exact spared (.map ((sends_ask _).mpr trivial) _)
  | updateTransactionStatus args => exact spared (.map ((sends_ask _).mpr trivial) _)
  | process payload =>
    exact spared (.map ((StkCallbackHandler.sends_process _ payload).mono
      fun _ hm => hm.ofCallback.sparesApprovals) _)
  | postCallback request =>
    exact spared (.map ((container.callbackRoute.sends_post _ request).mono
      fun _ => Msg.OfCallback.sparesApprovals) _)
  | generateReceipt checkoutRequestId =>
    exact reading (.map (ReceiptService.sends_generateReceipt checkoutRequestId) _)
  | generateReceiptByReference reference =>
    exact reading (.map (ReceiptService.sends_generateReceiptByReference reference) _)
  | getTodaySummary => exact reading (.map AnalyticsService.sends_getTodaySummary _)
  | getFailedTransactions => exact reading (.map AnalyticsService.sends_getFailedTransactions _)
  | runReconciliation =>
    exact reading (.map container.reconciliationService.sends_runReconciliation _)

/-- A call is within the limit, or enough operators stand behind it. -/
def Covered (container : AppContainer τ π) (operators : Finset String) (amount : Int) : Prop :=
  amount ≤ container.settings.maxStkAmount ∨ container.approvalService.Opens ∧
    max 1 (container.approvalService.reviewersFor amount) ≤ (operators.card : Int)

/-- An amount stays covered when more operators come. -/
theorem Covered.mono {operators' : Finset String} {amount : Int}
    (h : Covered container operators amount) (sub : operators ⊆ operators') :
    Covered container operators' amount := by
  refine h.imp_right fun h => ⟨h.1, ?_⟩
  have hle := Finset.card_le_card sub
  have hmax := h.2
  omega

/-- A step adds only calls that are covered: it pays a small amount at once, or a large one whose
request its review approved, with as many reviewers as it asks for. -/
theorem covered_step (op : Op) {w : World τ π}
    (h : AllReviewed env container.approvalService operators w.ambient.clockReads w.approvals)
    (mem : ∀ operatorId, op.operator? = some operatorId → operatorId ∈ operators)
    (calls : ∀ call ∈ w.initiations, Covered container operators call.request.amount) :
    ∀ call ∈ (step env container op w).2.initiations,
      Covered container operators call.request.amount := by
  have added : ∀ made : Initiation, Covered container operators made.request.amount →
      (step env container op w).2.initiations = w.initiations ++ [made] →
        ∀ call ∈ (step env container op w).2.initiations,
          Covered container operators call.request.amount := by
    intro made hmade happend call hcall
    rw [happend] at hcall
    rcases List.mem_append.mp hcall with hold | hnew
    · exact calls call hold
    · rw [List.mem_singleton.mp hnew]
      exact hmade
  cases step_cases env container op w with
  | moved _ same => exact same ▸ calls
  | filed _ _ _ _ _ _ _ _ _ _ _ _ same _ => exact same ▸ calls
  | paid args _ request _ _ within _ made =>
    obtain ⟨made, rfl, happend⟩ := made
    exact added made (Or.inl within) happend
  | executed approvalId operatorId input a stored _ early unseen enough _ _ made =>
    rcases made with same | ⟨made, key, payload, happend⟩
    · exact same ▸ calls
    · have hreviewed := h approvalId a stored
      have hmem : operatorId ∈ operators := mem operatorId (by rw [input]; rfl)
      exact added made (Or.inr ⟨hreviewed.opens (Nat.le_succ _) early,
        hreviewed.enough unseen hmem enough payload⟩) happend

/-- What holds along a run. -/
structure BurdenInvariant (env : Env) (container : AppContainer τ π) (history : List (AppStep τ π))
    (w : World τ π) : Prop where
  reviewed : AllReviewed env container.approvalService (operatorsOf (history.map Step.input))
    w.ambient.clockReads w.approvals
  calls : ∀ call ∈ w.initiations,
    Covered container (operatorsOf (history.map Step.input)) call.request.amount

/-- One operation: each call it makes to the provider is covered by the operators who had reviewed by
then, and each stored request is reviewed among those of the run so far. -/
theorem BurdenInvariant.step {history : List (AppStep τ π)} {w : World τ π}
    (h : BurdenInvariant env container history w) (op : Op) :
    BurdenInvariant env container (history ++ [stepAt (MpesaMcp.step env container) w op])
      (MpesaMcp.step env container op w).2 := by
  have hsub : operatorsOf (history.map Step.input) ⊆
      operatorsOf ((history ++ [stepAt (MpesaMcp.step env container) w op]).map Step.input) := by
    intro operatorId hmem
    simp only [operatorsOf, List.mem_toFinset, List.map_append, List.filterMap_append] at hmem ⊢
    exact List.mem_append_left _ hmem
  have hmem : ∀ operatorId, op.operator? = some operatorId → operatorId ∈
      operatorsOf ((history ++ [stepAt (MpesaMcp.step env container) w op]).map Step.input) := by
    intro operatorId hop
    simp [operatorsOf, stepAt, hop]
  have hreviewed := h.reviewed.mono hsub (Nat.le_refl _)
  exact ⟨reviewed_step op hreviewed hmem,
    covered_step op hreviewed hmem fun call hcall => (h.calls call hcall).mono hsub⟩

/-- **The run lemma**: every call of a run is covered by the operators that reviewed in it. -/
theorem covered_run (run : Run τ π) {call : Initiation}
    (hcall : call ∈ (run.final container).initiations) :
    Covered container (operatorsOf run.ops) call.request.amount := by
  have hstart : BurdenInvariant run.env container [] (start run.transactions run.provider) := by
    refine ⟨fun approvalId a stored => ?_, nofun⟩
    cases (Keyed.get_empty approvalId).symm.trans stored
  have hinvariant := invariant hstart (fun _ _ op h => h.step op) run.ops
  have hcovered := hinvariant.calls call hcall
  rwa [map_input_trace] at hcovered

end Step

/-! ## Runs that pay -/

/-- A store in which no key is found while the database answers. -/
structure EmptyStore {τ : Type} (repository : TransactionRepository τ) where
  transactions : τ
  misses : ∀ env a idempotencyKey, (∀ n, env.databaseFails n = false) →
    (repository.answer env (.findByIdempotencyKey idempotencyKey) (a, transactions)).1 = .ok none

def InMemoryTransactionRepository.emptyStore : EmptyStore InMemoryTransactionRepository where
  transactions := Keyed.empty
  misses _ _ _ _ := rfl

def PostgresTransactionRepository.emptyStore : EmptyStore PostgresTransactionRepository where
  transactions := TransactionTable.empty
  misses env a _ answered :=
    congrArg Prod.fst (run_select env a TransactionTable.empty (answered _) rfl rfl)

section Pays

variable {τ π : Type} {env : Env} {container : AppContainer τ π}
  (store : EmptyStore container.transactionRepository)
  (answered : ∀ n, env.databaseFails n = false)

include answered

/-- A push over the empty store reaches the provider. -/
theorem push_emptyStore (request : InitiatePayment) (idempotencyKey : String) {w : World τ π}
    (transactions : w.transactions = store.transactions) :
    ∃ call ∈ (Prog.run (handle env container)
      (executeStkPush request idempotencyKey) w).2.initiations, call.request = request := by
  have hmissing : (keyAnswer env container idempotencyKey w.store).1 = .ok none := by
    have hmisses := store.misses env w.ambient idempotencyKey answered
    rwa [← transactions] at hmisses
  obtain ⟨call, hrequest, hcalls⟩ := push_called env container request hmissing
  refine ⟨call, ?_, hrequest⟩
  rw [hcalls]
  exact List.mem_append_right _ List.mem_cons_self

omit answered in
/-- A first review of an open request completes it, or is added to it. -/
theorem review_open (env : Env) (container : AppContainer τ π) {approvalId operatorId : String}
    {a : ApprovalRequest} {w : World τ π} (stored : w.approvals.get approvalId = some a)
    (pending : a.status = .pending) (early : ∀ k, env.clock k < a.expiresAt)
    (unseen : operatorId ∉ a.reviewerIds) :
    ∃ response w' now, Prog.run (handle env container)
        (ApprovalService.approveRequest approvalId operatorId) w = (.ok response, w') ∧ w.Idle w' ∧
      ((a.requiredReviewers ≤ (a.reviewerIds.length : Int) + 1 ∧ response.status = .approved ∧
          response.approval = some (a.approvedBy operatorId now)) ∨
        ((a.reviewerIds.length : Int) + 1 < a.requiredReviewers ∧
          w'.approvals = w.approvals.put (a.reviewedBy operatorId now))) := by
  obtain ⟨response, w', hrun, hcase⟩ := review_cases env container approvalId operatorId w
  have hidle := run_idle env container (ApprovalService.sends_approveRequest approvalId operatorId) w
  rw [hrun] at hidle
  refine ⟨response, w', env.clock (w.ambient.clockReads + 1), hrun, hidle, ?_⟩
  cases hcase with
  | absent missing => cases missing.symm.trans stored
  | refused b hb cause =>
    cases hb.symm.trans stored
    exact absurd cause (by simp [pending, unseen])
  | expired b hb _ due =>
    cases hb.symm.trans stored
    exact absurd due (not_le.mpr (early _))
  | reviewed b hb _ _ _ short _ put =>
    cases hb.symm.trans stored
    exact Or.inr ⟨short, put⟩
  | approved b hb _ _ _ enough answer =>
    cases hb.symm.trans stored
    exact Or.inl ⟨enough, answer.1, answer.2⟩

/-- The review that completes a request pays it. -/
theorem executeApprovedPayment_pays {approvalId operatorId : String} {a : ApprovalRequest}
    {w : World τ π} (stored : w.approvals.get approvalId = some a) (pending : a.status = .pending)
    (early : ∀ k, env.clock k < a.expiresAt) (unseen : operatorId ∉ a.reviewerIds)
    (enough : a.requiredReviewers ≤ (a.reviewerIds.length : Int) + 1) {request : InitiatePayment}
    {key : String} (payload : executablePayload a.payload = some (request, key))
    (transactions : w.transactions = store.transactions) :
    ∃ call ∈ (step env container (.executeApprovedPayment approvalId operatorId) w).2.initiations,
      call.request = request := by
  obtain ⟨response, w₁, now, hrun, hidle, hcase⟩ := review_open env container (w := w.readClock env)
    stored pending early unseen
  rcases hcase with ⟨-, hstatus, happroval⟩ | ⟨short, -⟩
  case inr => omega
  have hlookup : Prog.run (handle env container) (ApprovalService.getApprovalRequest approvalId) w =
      (.ok (some a), w) := by
    rw [← stored]
    rfl
  have hopen : Prog.run (handle env container) (ApprovalService.isExpired a) w =
      (.ok false, w.readClock env) := by
    rw [run_isExpired_pending env container pending, decide_eq_false (not_le.mpr (early _))]
  have hreviewed : Prog.run (handle env container) (reviewForExecution approvalId operatorId) w =
      (.ok (.inr (response, a.approvedBy operatorId now)), w₁) := by
    simp only [reviewForExecution, Prog.run_bind, hlookup, hopen, pending, hrun, hstatus, happroval,
      ne_eq, not_true_eq_false, Bool.false_eq_true, if_false, Prog.run_pure]
  have hafter : (step env container (.executeApprovedPayment approvalId operatorId) w).2 =
      (Prog.run (handle env container) (executeStkPush request key) w₁).2 := by
    rw [step_of_review env container hreviewed, payReviewed_of_named payload, Prog.run_map]
  rw [hafter]
  exact push_emptyStore store answered request key (hidle.1.trans transactions)

omit answered in
/-- A review short of what is required is added to the request. -/
theorem run_shortReview (env : Env) (container : AppContainer τ π) {approvalId operatorId : String}
    {a : ApprovalRequest} {w : World τ π} (stored : w.approvals.get approvalId = some a)
    (pending : a.status = .pending) (early : ∀ k, env.clock k < a.expiresAt)
    (unseen : operatorId ∉ a.reviewerIds)
    (short : (a.reviewerIds.length : Int) + 1 < a.requiredReviewers) :
    let w' := (step env container (.approveRequest approvalId operatorId) w).2
    w.Idle w' ∧ ∃ now, w'.approvals = w.approvals.put (a.reviewedBy operatorId now) := by
  obtain ⟨response, w', now, hrun, hidle, hcase⟩ :=
    review_open env container stored pending early unseen
  rw [step_after env container rfl hrun]
  rcases hcase with ⟨enough, -, -⟩ | ⟨-, hput⟩
  · omega
  · exact ⟨hidle, now, hput⟩

end Pays

/-! ### Above the limit -/

/-- A call for an amount. -/
def payingCall (amount : Int) : InitiateStkPush where
  phoneNumber := some "254700000000"
  amount := some amount
  accountReference := "INV-1"
  description := "Invoice 1"

def payingRequest (amount : Int) : InitiatePayment :=
  ⟨"254700000000", amount, "INV-1", "Invoice 1"⟩

/-- The i-th of a row of operators. -/
def reviewer (i : Nat) : String := Env.still.uuid4 i

/-- A call above the limit, and reviews of the request it files. -/
def reviewsOf (amount : Int) (reviews : Nat) : List Op :=
  .initiateStkPush (payingCall amount) ::
    (List.range reviews).map fun i => .approveRequest (Env.still.uuid4 0) (reviewer i)

/-- With one review more, by which the request is executed. -/
def reviewedPayment (amount : Int) (reviews : Nat) : List Op :=
  reviewsOf amount reviews ++ [.executeApprovedPayment (Env.still.uuid4 0) (reviewer reviews)]

section Above

variable {τ π : Type} {container : AppContainer τ π} {now expiresAt : Datetime} {amount : Int}

/-- The request for the amount is stored, pending and open, after some reviews. -/
structure Awaits (container : AppContainer τ π) (expiresAt : Datetime) (amount : Int)
    (transactions : τ) (reviews : Nat) (w : World τ π) : Prop where
  transactions : w.transactions = transactions
  stored : ∃ a, w.approvals.get (Env.still.uuid4 0) = some a ∧ a.status = .pending ∧
    a.expiresAt = expiresAt ∧ a.reviewerIds = (List.range reviews).map reviewer ∧
    a.requiredReviewers = container.approvalService.reviewersFor amount ∧
    ∃ key, executablePayload a.payload = some (payingRequest amount, key)

theorem reviewer_unseen (reviews : Nat) : reviewer reviews ∉ (List.range reviews).map reviewer := by
  intro hmem
  obtain ⟨i, hi, hsame⟩ := List.mem_map.mp hmem
  have hlt := List.mem_range.mp hi
  have heq := Env.still.uuid4_injective hsame
  omega

/-- A call above the limit files the request. -/
theorem awaits_filed (positive : 0 < amount) (above : container.settings.maxStkAmount < amount)
    (opens : Datetime.addMinutes now container.settings.approvalExpiryMinutes = some expiresAt)
    (transactions : τ) (provider : π) :
    Awaits container expiresAt amount transactions 0 (step (Env.still.atClock now) container
      (.initiateStkPush (payingCall amount)) (start transactions provider)).2 := by
  have hprogram := initiation_program (Env.still.atClock now) container (payingCall amount)
  have hstep : (step (Env.still.atClock now) container (.initiateStkPush (payingCall amount))
      (start transactions provider)).2 = (Prog.run (handle (Env.still.atClock now) container)
        (container.paymentService.initiateStkPush (Env.still.atClock now).toRuntime
          (payingCall amount)) (start transactions provider)).2 := by
    simp only [step, program, Prog.run_map]
  rw [hstep]
  generalize container.paymentService.initiateStkPush (Env.still.atClock now).toRuntime
    (payingCall amount) = p at hprogram ⊢
  have hrequested : requestedPayment (payingCall amount) = some (payingRequest amount) := rfl
  cases hprogram with
  | pays request requested _ within =>
    cases requested.symm.trans hrequested
    exact absurd within (not_le.mpr above)
  | refuses response _ unpaid => exact absurd (unpaid _ hrequested) (not_le.mpr positive)
  | files decision request requested =>
    cases requested.symm.trans hrequested
    obtain ⟨response, w', hrun, -, hput, hidle⟩ := run_filing (Env.still.atClock now) container
      decision (payingRequest amount) (keyFor (Env.still.atClock now).toRuntime (payingCall amount)
        (payingRequest amount)) (w := start transactions provider) opens
    rw [hrun]
    exact ⟨hidle.1, _, (congrArg (Keyed.get · _) hput).trans (Keyed.get_put_of_eq _ rfl), rfl, rfl,
      rfl, rfl, _, executablePayload_approvalPayload _ _⟩

/-- Every review short of the last adds to it. -/
theorem awaits_reviewed (early : now < expiresAt) {transactions : τ} {reviews : Nat} {w : World τ π}
    (h : Awaits container expiresAt amount transactions reviews w)
    (short : (reviews : Int) + 1 < container.approvalService.reviewersFor amount) :
    Awaits container expiresAt amount transactions (reviews + 1)
      (step (Env.still.atClock now) container
        (.approveRequest (Env.still.uuid4 0) (reviewer reviews)) w).2 := by
  obtain ⟨a, stored, pending, expires, reviewers, required, key, payload⟩ := h.stored
  have hunseen : reviewer reviews ∉ a.reviewerIds := by
    rw [reviewers]
    exact reviewer_unseen reviews
  have hshort : (a.reviewerIds.length : Int) + 1 < a.requiredReviewers := by
    rw [reviewers, required, List.length_map, List.length_range]
    exact short
  obtain ⟨hidle, t, hput⟩ := run_shortReview (Env.still.atClock now) container stored pending
    (fun _ => expires ▸ early) hunseen hshort
  refine ⟨hidle.1.trans h.transactions, a.reviewedBy (reviewer reviews) t, ?_, pending, expires, ?_,
    required, key, payload⟩
  · rw [hput]
    exact Keyed.get_put_of_eq _ (Keyed.key_of_get (a := a) stored)
  · show a.reviewerIds ++ [reviewer reviews] = _
    rw [reviewers, List.range_succ, List.map_append, List.map_singleton]

/-- The request after so many reviews, as long as one more is required: by induction on their number,
each by an operator who has not reviewed. -/
theorem awaits_final (positive : 0 < amount) (above : container.settings.maxStkAmount < amount)
    (opens : Datetime.addMinutes now container.settings.approvalExpiryMinutes = some expiresAt)
    (early : now < expiresAt) (transactions : τ) (provider : π) {reviews : Nat}
    (short : (reviews : Int) < max 1 (container.approvalService.reviewersFor amount)) :
    Awaits container expiresAt amount transactions reviews
      (final (step (Env.still.atClock now) container) (start transactions provider)
        (reviewsOf amount reviews)) := by
  induction reviews with
  | zero => exact awaits_filed positive above opens transactions provider
  | succ reviews ih =>
    have hops : reviewsOf amount (reviews + 1) = reviewsOf amount reviews ++
        [.approveRequest (Env.still.uuid4 0) (reviewer reviews)] := by
      simp [reviewsOf, List.range_succ]
    rw [hops, final_snoc]
    exact awaits_reviewed early (ih (by omega)) (by omega)

end Above

/-! ## The burden of an amount -/

section Burden

variable {τ π : Type} {container : AppContainer τ π} {amount : Int}

/-- The lower bound: a run that pays an amount has as many operators as it burdens them with. -/
theorem reviewBurden_le {run : Run τ π} (pays : run.Pays container amount) {operators : ℕ}
    (card : (operatorsOf run.ops).card ≤ operators) : reviewBurden container amount ≤ operators :=
  iInf₂_le_of_le run pays (Nat.cast_le.mpr card)

/-- Up to the limit the call itself pays. -/
theorem reviewBurden_within (store : EmptyStore container.transactionRepository) (provider : π)
    (positive : 0 < amount) (within : amount ≤ container.settings.maxStkAmount) :
    reviewBurden container amount = 0 := by
  have hrequested : requestedPayment (payingCall amount) = some (payingRequest amount) := rfl
  have hprogram := initiateStkPush_within .still container hrequested positive within
  have hstep : (step .still container (.initiateStkPush (payingCall amount))
      (start store.transactions provider)).2 = (Prog.run (handle .still container)
        (executeStkPush (payingRequest amount) (keyFor Env.still.toRuntime (payingCall amount)
          (payingRequest amount))) (start store.transactions provider)).2 := by
    simp only [step, program, Prog.run_map, hprogram]
  have hanswered : ∀ n, Env.still.databaseFails n = false := fun _ => rfl
  obtain ⟨call, hcall, hrequest⟩ := push_emptyStore store hanswered (payingRequest amount)
    (keyFor Env.still.toRuntime (payingCall amount) (payingRequest amount))
    (w := start store.transactions provider) rfl
  rw [← hstep] at hcall
  have hpays : Run.Pays ⟨.still, store.transactions, provider,
      [.initiateStkPush (payingCall amount)]⟩ container amount :=
    ⟨call, hcall, congrArg InitiatePayment.amount hrequest⟩
  exact nonpos_iff_eq_zero.mp (reviewBurden_le hpays (Nat.le_refl 0))

/-- The upper bound: one run pays the amount with no more operators than that. -/
theorem card_operatorsOf_reviewedPayment (amount : Int) (reviews : Nat) :
    (operatorsOf (reviewedPayment amount reviews)).card ≤ reviews + 1 := by
  have hops : (reviewedPayment amount reviews).filterMap Op.operator? =
      (List.range (reviews + 1)).map reviewer := by
    simp [reviewedPayment, reviewsOf, Op.operator?, List.range_succ, List.filterMap_cons,
      Function.comp_def]
  rw [operatorsOf, hops]
  refine le_trans (List.toFinset_card_le _) ?_
  rw [List.length_map, List.length_range]

/-- Above the limit the required reviewers are enough. -/
theorem reviewBurden_above_le (store : EmptyStore container.transactionRepository) (provider : π)
    (positive : 0 < amount) (above : container.settings.maxStkAmount < amount)
    (opens : container.approvalService.Opens) :
    reviewBurden container amount ≤
      ((max 1 (container.approvalService.reviewersFor amount)).toNat : ℕ∞) := by
  obtain ⟨now, expiresAt, hopen, early⟩ := opens
  obtain ⟨reviews, hreviews⟩ : ∃ reviews : Nat,
      (reviews : Int) + 1 = max 1 (container.approvalService.reviewersFor amount) :=
    ⟨(max 1 (container.approvalService.reviewersFor amount)).toNat - 1, by omega⟩
  have hshort : (reviews : Int) < max 1 (container.approvalService.reviewersFor amount) := by omega
  obtain ⟨htransactions, a, stored, pending, expires, reviewers, required, key, payload⟩ :=
    awaits_final positive above hopen early store.transactions provider hshort
  have hunseen : reviewer reviews ∉ a.reviewerIds := by
    rw [reviewers]
    exact reviewer_unseen reviews
  have henough : a.requiredReviewers ≤ (a.reviewerIds.length : Int) + 1 := by
    rw [reviewers, required, List.length_map, List.length_range]
    omega
  have hanswered : ∀ n, (Env.still.atClock now).databaseFails n = false := fun _ => rfl
  obtain ⟨call, hcall, hrequest⟩ := executeApprovedPayment_pays store hanswered stored pending
    (fun _ => expires ▸ early) hunseen henough payload htransactions
  have hpays : Run.Pays ⟨Env.still.atClock now, store.transactions, provider,
      reviewedPayment amount reviews⟩ container amount := by
    refine ⟨call, ?_, congrArg InitiatePayment.amount hrequest⟩
    rw [Run.final, reviewedPayment, final_snoc]
    exact hcall
  have hcount : (max 1 (container.approvalService.reviewersFor amount)).toNat = reviews + 1 := by
    omega
  rw [hcount]
  exact reviewBurden_le hpays (card_operatorsOf_reviewedPayment amount reviews)

/-- Above the limit the required reviewers are needed. -/
theorem le_reviewBurden (above : container.settings.maxStkAmount < amount) :
    ((max 1 (container.approvalService.reviewersFor amount)).toNat : ℕ∞) ≤
      reviewBurden container amount := by
  refine le_iInf₂ fun run pays => Nat.cast_le.mpr ?_
  obtain ⟨call, hcall, rfl⟩ := pays
  rcases covered_run run hcall with within | ⟨-, hcard⟩
  · exact absurd within (not_le.mpr above)
  · omega

/-- Where no request is ever open, nothing above the limit is paid. -/
theorem reviewBurden_shut (above : container.settings.maxStkAmount < amount)
    (shut : ¬ container.approvalService.Opens) : reviewBurden container amount = ⊤ := by
  refine eq_top_iff.mpr (le_iInf₂ fun run pays => ?_)
  obtain ⟨call, hcall, rfl⟩ := pays
  rcases covered_run run hcall with within | ⟨hopens, -⟩
  · exact absurd within (not_le.mpr above)
  · exact absurd hopens shut

/-- What the burden is. -/
theorem reviewBurden_eq (store : EmptyStore container.transactionRepository) (provider : π)
    (positive : 0 < amount) :
    reviewBurden container amount =
      if amount ≤ container.settings.maxStkAmount then 0
      else if container.approvalService.Opens then
        ((max 1 (container.approvalService.reviewersFor amount)).toNat : ℕ∞)
      else ⊤ := by
  split
  next within => exact reviewBurden_within store provider positive within
  next hnot =>
    have above := not_le.mp hnot
    split
    next hopens =>
      exact le_antisymm (reviewBurden_above_le store provider positive above hopens)
        (le_reviewBurden above)
    next hshut => exact reviewBurden_shut above hshut

/-- The burden of an amount is no more than that of a larger one, except from between the limit and the
threshold to the threshold and beyond, where fewer reviewers are required there. -/
theorem review_burden_monotone_iff (container : AppContainer τ π)
    (store : EmptyStore container.transactionRepository) (provider : π) (a b : Int)
    (positive : 0 < a) (le : a ≤ b) :
    reviewBurden container a ≤ reviewBurden container b ↔
      ¬ (container.settings.maxStkAmount < a ∧ a < container.settings.highRiskAmountThreshold ∧
        container.settings.highRiskAmountThreshold ≤ b ∧ container.approvalService.Opens ∧
        max 1 container.settings.highRiskApprovalRequiredReviewers <
          max 1 container.settings.approvalRequiredReviewers) := by
  have hthreshold : container.approvalService.highRiskAmountThreshold =
    container.settings.highRiskAmountThreshold := rfl
  have hreviewers : container.approvalService.requiredReviewers =
    container.settings.approvalRequiredReviewers := rfl
  have hhigh : container.approvalService.highRiskRequiredReviewers =
    container.settings.highRiskApprovalRequiredReviewers := rfl
  by_cases within : a ≤ container.settings.maxStkAmount
  · rw [reviewBurden_within store provider positive within]
    refine iff_of_true bot_le fun h => ?_
    omega
  · have above : container.settings.maxStkAmount < a := not_le.mp within
    have above' : container.settings.maxStkAmount < b := lt_of_lt_of_le above le
    by_cases opens : container.approvalService.Opens
    · rw [reviewBurden_eq store provider positive,
        reviewBurden_eq store provider (lt_of_lt_of_le positive le), if_neg within,
        if_neg (not_le.mpr above'), if_pos opens, if_pos opens, Nat.cast_le,
        ApprovalService.reviewersFor, ApprovalService.reviewersFor, hthreshold, hreviewers, hhigh]
      simp only [opens, true_and]
      split <;> split <;> omega
    · rw [reviewBurden_shut above' opens]
      exact iff_of_true le_top fun h => opens h.2.2.2.1

/-- With the default settings nothing is wrong between 20 000 and 60 000. -/
theorem review_burden_monotone_iff_defaults :
    reviewBurden (AppContainer.mock {}) 20000 ≤ reviewBurden (AppContainer.mock {}) 60000 :=
  (review_burden_monotone_iff (AppContainer.mock {}) InMemoryTransactionRepository.emptyStore ()
    20000 60000 (by decide) (by decide)).mpr (by decide)

/-- Three reviewers for ordinary requests, and two for those from 50 000 on. -/
def threeReviewers : Settings := { approvalRequiredReviewers := 3 }

/-- Then 50 000 takes fewer operators than 20 000. -/
theorem review_burden_decreases :
    ¬ reviewBurden (AppContainer.mock threeReviewers) 20000 ≤
      reviewBurden (AppContainer.mock threeReviewers) 50000 := by
  have hstore : EmptyStore (AppContainer.mock threeReviewers).transactionRepository :=
    InMemoryTransactionRepository.emptyStore
  have habove : (AppContainer.mock threeReviewers).settings.maxStkAmount < 20000 := by decide
  have hpositive : (0 : Int) < 50000 := by decide
  have hupper := reviewBurden_above_le hstore () hpositive (by decide) (by decide)
  intro hle
  have hreviewers : 3 ≤ 2 := Nat.cast_le.mp ((le_reviewBurden habove).trans (hle.trans hupper))
  omega

end Burden

end MpesaMcp
