import MpesaMcp.Laws.KeyedPayments
import MpesaMcp.Laws.Pushes
import MpesaMcp.Laws.Receipts
import MpesaMcp.Laws.SeparationOfDuties

/-!
# Approved payments are carried out

Over the in-memory repository. The review that completes a request and the payment behind it are one
operation, and nothing the server does completes a request without paying. So behind every approved
request of a run stands a stored transaction under its idempotency key, or a call for exactly its payment
that the provider refused (`approved_requests_executed`).
-/

set_option autoImplicit false

namespace MpesaMcp

open Library Python PaymentService

variable {π : Type}

/-! ## The property -/

/-- A transaction is stored under the key, or the provider refused a call for the payment. -/
def Attempted (request : InitiatePayment) (idempotencyKey : String) (w : World Transactions π) : Prop :=
  HasKey idempotencyKey w.transactions ∨
    ∃ call ∈ w.initiations, call.request = request ∧ ∃ e, call.result = .error e

/-- The payload names a payment, which was attempted if the request is approved. -/
def Redeemed (w : World Transactions π) (a : ApprovalRequest) : Prop :=
  ∃ request idempotencyKey, executablePayload a.payload = some (request, idempotencyKey) ∧
    (a.status = .approved → Attempted request idempotencyKey w)

/-- Every stored request is redeemed, and the identifiers in the store were drawn. -/
structure AllRedeemed (env : Env) (w : World Transactions π) : Prop where
  issued : RowsIssued env w.ambient w.transactions
  redeemed : ∀ approvalId a, w.approvals.get approvalId = some a → Redeemed w a

/-! ## One operation -/

/-- What was attempted stays so. -/
theorem Attempted.later {request : InitiatePayment} {idempotencyKey : String}
    {w w' : World Transactions π} (h : Attempted request idempotencyKey w)
    (extends_ : w.transactions.Extends SameIdentity w'.transactions)
    (calls : w.initiations <+: w'.initiations) : Attempted request idempotencyKey w' := by
  rcases h with hkey | ⟨call, hcall, refused⟩
  · exact Or.inl (hkey.extends extends_)
  · exact Or.inr ⟨call, calls.subset hcall, refused⟩

/-- A request that was redeemed stays so: transactions keep their keys and calls of the provider are
never taken back. -/
theorem Redeemed.later {w w' : World Transactions π} {a : ApprovalRequest} (h : Redeemed w a)
    (extends_ : w.transactions.Extends SameIdentity w'.transactions)
    (calls : w.initiations <+: w'.initiations) : Redeemed w' a := by
  obtain ⟨request, idempotencyKey, named, attempted⟩ := h
  exact ⟨request, idempotencyKey, named, fun approved => (attempted approved).later extends_ calls⟩

section Step

variable {env : Env} {settings : Settings} {verifier : CallbackSourceVerifier}
  {provider : PaymentProvider π}

/-- A push leaves its payment attempted. -/
theorem attempted_push (request : InitiatePayment) (idempotencyKey : String)
    (w : World Transactions π) :
    Attempted request idempotencyKey (Prog.run (handle env (.inMemory settings verifier provider))
      (executeStkPush request idempotencyKey) w).2 := by
  cases push_memory env settings verifier provider request idempotencyKey w with
  | existing t found answer after =>
    have hkey : t.idempotencyKey = some idempotencyKey := by simpa using List.find?_some found
    rw [after]
    exact Or.inl ⟨t, List.mem_of_find?_eq_some found, hkey⟩
  | declined missing e answer transactions events metrics call refused calls =>
    have hmissing : (keyAnswer env (.inMemory settings verifier provider) idempotencyKey
        w.store).1 = .ok none := congrArg Except.ok missing
    obtain ⟨call', hrequest, hcalls⟩ :=
      push_called env (.inMemory settings verifier provider) request hmissing
    have hcall : call' = call := by simpa using hcalls.symm.trans calls
    subst hcall
    refine Or.inr ⟨call', ?_, hrequest, e, refused⟩
    rw [calls]
    exact List.mem_append_right _ (List.mem_singleton_self _)
  | recorded missing response t k drawn createdAt updatedAt record answer put =>
    refine Or.inl ⟨t, ?_, ?_⟩
    · rw [put]
      exact Keyed.mem_values_put.mpr (Or.inl rfl)
    · rw [record]
      rfl

/-- What becomes of the stored requests when an operation leads from `w` to `w'`. -/
def RedeemsTo (w w' : World Transactions π) : Prop :=
  ∀ approvalId b, w'.approvals.get approvalId = some b →
    w.approvals.get approvalId = some b ∨
    (∃ a, w.approvals.get approvalId = some a ∧ b.payload = a.payload ∧ (b.status = .approved →
      ∀ request idempotencyKey, executablePayload a.payload = some (request, idempotencyKey) →
        Attempted request idempotencyKey w')) ∨
    (b.status = .pending ∧ (executablePayload b.payload).isSome)

/-- An operation that writes no request leaves them redeemed. -/
theorem RedeemsTo.of_eq {w w' : World Transactions π} (same : w'.approvals = w.approvals) :
    RedeemsTo w w' :=
  fun _ _ hb => Or.inl (same ▸ hb)

/-- Moves that keep the payload and do not approve leave every request redeemed, since nothing is owed
for it yet. -/
theorem RedeemsTo.of_moves {R : ApprovalRequest → ApprovalRequest → Prop} {w w' : World Transactions π}
    (moves : MovesOnly R w.approvals w'.approvals)
    (unapproved : ∀ a b, R a b → b.payload = a.payload ∧ b.status ≠ .approved) : RedeemsTo w w' := by
  intro approvalId b hb
  rcases moves approvalId with hsame | ⟨a, c, ha, hc, hmove⟩
  · exact Or.inl (hsame ▸ hb)
  · cases hc.symm.trans hb
    obtain ⟨hpayload, hstatus⟩ := unapproved a b hmove
    exact Or.inr (Or.inl ⟨a, ha, hpayload, fun approved => absurd approved hstatus⟩)

/-- A sweep. -/
theorem RedeemsTo.of_expires {w w' : World Transactions π}
    (moves : MovesOnly (Expires env) w.approvals w'.approvals) : RedeemsTo w w' := by
  refine .of_moves moves ?_
  rintro a b ⟨-, k, -, rfl⟩
  exact ⟨ApprovalRequest.payload_withStatus _ _ _, by simp⟩

/-- A request is filed with a payload that can be executed, and is pending. -/
theorem redeems_initiateStkPush (args : InitiateStkPush) (w : World Transactions π) :
    RedeemsTo w (step env (.inMemory settings verifier provider) (.initiateStkPush args) w).2 := by
  obtain ⟨output, w', hrun, hcase⟩ :=
    initiation_cases env (.inMemory settings verifier provider) args w
  rw [step_after env (.inMemory settings verifier provider) rfl hrun]
  cases hcase with
  | quiet same => exact .of_eq same
  | filed request _ _ _ approval _ payload blank _ put =>
    intro approvalId b hb
    rw [put, Keyed.get_put] at hb
    split at hb
    next =>
      cases hb
      refine Or.inr (Or.inr ⟨blank.1, ?_⟩)
      rw [payload, executablePayload_approvalPayload]
      rfl
    next => exact Or.inl hb
  | paid request _ _ _ ran =>
    have hsame := run_approvals env (.inMemory settings verifier provider)
      ((sends_executeStkPush request (keyFor env.toRuntime args request)).mono
        fun _ => Msg.OfExecution.sparesApprovals) w
    rw [ran] at hsame
    exact .of_eq hsame

/-- The step that approves also pays: the push that follows the review stores a transaction under the
key of the payload, finds one there, or has the provider refuse. -/
theorem redeems_executeApprovedPayment (approvalId operatorId : String) (w : World Transactions π) :
    RedeemsTo w (step env (.inMemory settings verifier provider)
      (.executeApprovedPayment approvalId operatorId) w).2 := by
  obtain ⟨output, w', hrun, hcase⟩ :=
    execution_cases env (.inMemory settings verifier provider) approvalId operatorId w
  rw [step_after env (.inMemory settings verifier provider) rfl hrun]
  cases hcase with
  | absent _ _ same => exact .of_eq same
  | expired _ _ _ _ moves => exact .of_expires moves
  | refused _ _ _ _ same => exact .of_eq same
  | reviewed a stored pending _ _ _ _ put =>
    refine RedeemsTo.of_moves (R := fun a b => b.payload = a.payload ∧ b.status ≠ .approved)
      (put ▸ .of_put stored rfl ⟨rfl, ?_⟩) fun _ _ h => h
    intro approved
    cases pending.symm.trans approved
  | approved a stored pending _ _ _ w₁ _ put _ paid =>
    -- the payment behind the review is of the request that it completes
    have hsame := (run_executeApprovedStkPush env (.inMemory settings verifier provider)
      a.payload w₁).1
    intro id b hb
    rw [paid, hsame, put, Keyed.get_put] at hb
    split at hb
    next hid =>
      cases hb
      have hkey : a.approvalId = approvalId := Keyed.key_of_get stored
      refine Or.inr (Or.inl ⟨a, ?_, rfl, ?_⟩)
      · have hid' : id = a.approvalId := hid
        rw [hid', hkey]
        exact stored
      · intro _ request idempotencyKey named
        rw [paid, executeApprovedStkPush, named]
        exact attempted_push request idempotencyKey w₁
    next => exact Or.inl hb

/-- A rejection approves nothing and keeps the payload. -/
theorem redeems_rejectRequest (approvalId : String) (w : World Transactions π) :
    RedeemsTo w (step env (.inMemory settings verifier provider) (.rejectRequest approvalId) w).2 := by
  obtain ⟨response, w', hrun, hcase⟩ :=
    reject_cases env (.inMemory settings verifier provider) approvalId w
  rw [step_after env (.inMemory settings verifier provider) rfl hrun]
  have hput : ∀ {x : ApprovalRequest} {status now}, w.approvals.get approvalId = some x →
      status ≠ .approved → w'.approvals = w.approvals.put (x.withStatus status now) →
        RedeemsTo w w' := by
    intro x status now stored unapproved put
    refine RedeemsTo.of_moves (R := fun a b => b.payload = a.payload ∧ b.status ≠ .approved)
      (put ▸ .of_put stored ?_ ⟨?_, ?_⟩) fun _ _ h => h
    · exact ApprovalRequest.approvalId_withStatus _ _ _
    · exact ApprovalRequest.payload_withStatus _ _ _
    · rwa [ApprovalRequest.status_withStatus]
  cases hcase with
  | absent _ _ same => exact .of_eq same
  | expired x hx _ _ _ put => exact hput hx (fun h => by cases h) put
  | rejected x hx now _ put => exact hput hx (fun h => by cases h) put

/-- What each operation does to the requests, unless it reviews without paying: it files one that is
executable, moves some short of approval, or approves one and attempts its payment. -/
theorem step_redeems (op : Op)
    (paying : ∀ approvalId operatorId, op ≠ .approveRequest approvalId operatorId)
    (w : World Transactions π) :
    RedeemsTo w (step env (.inMemory settings verifier provider) op w).2 := by
  have spared : (program (.inMemory settings verifier provider) env.toRuntime op).Sends
      Msg.SparesApprovals →
        RedeemsTo w (step env (.inMemory settings verifier provider) op w).2 :=
    fun sends => .of_eq (run_approvals env _ sends w)
  have reading : (program (.inMemory settings verifier provider) env.toRuntime op).Sends
      Msg.OfReading →
        RedeemsTo w (step env (.inMemory settings verifier provider) op w).2 :=
    fun sends => spared (sends.mono fun _ => Msg.OfReading.sparesApprovals)
  cases op with
  | initiateStkPush args => exact redeems_initiateStkPush args w
  | executeApprovedPayment approvalId operatorId =>
    exact redeems_executeApprovedPayment approvalId operatorId w
  | approveRequest approvalId operatorId => exact absurd rfl (paying approvalId operatorId)
  | rejectRequest approvalId => exact redeems_rejectRequest approvalId w
  | expireStaleApprovals =>
    obtain ⟨count, w', hrun, hmoves⟩ :=
      run_expireStaleApprovals env (.inMemory settings verifier provider) w
    rw [step_after env (.inMemory settings verifier provider) rfl hrun]
    exact .of_expires hmoves
  | listPendingRequests =>
    obtain ⟨approvals, w', hrun, hmoves⟩ :=
      run_listPendingRequests env (.inMemory settings verifier provider) w
    rw [step_after env (.inMemory settings verifier provider) rfl hrun]
    exact .of_expires hmoves
  | savePendingTransaction args => exact spared (.map ((sends_ask _).mpr trivial) _)
  | updateTransactionStatus args => exact spared (.map ((sends_ask _).mpr trivial) _)
  | process payload =>
    exact spared (.map ((StkCallbackHandler.sends_process _ payload).mono
      fun _ hm => hm.ofCallback.sparesApprovals) _)
  | postCallback request =>
    exact spared (.map (((AppContainer.inMemory settings verifier provider).callbackRoute.sends_post
      _ request).mono fun _ => Msg.OfCallback.sparesApprovals) _)
  | generateReceipt checkoutRequestId =>
    exact reading (.map (ReceiptService.sends_generateReceipt checkoutRequestId) _)
  | generateReceiptByReference reference =>
    exact reading (.map (ReceiptService.sends_generateReceiptByReference reference) _)
  | getTodaySummary => exact reading (.map AnalyticsService.sends_getTodaySummary _)
  | getFailedTransactions => exact reading (.map AnalyticsService.sends_getFailedTransactions _)
  | runReconciliation =>
    exact reading (.map (AppContainer.inMemory settings verifier
      provider).reconciliationService.sends_runReconciliation _)

/-- One operation keeps every stored request redeemed, with one exception that the server never makes:
a bare approval, which does not pay. -/
theorem AllRedeemed.step {w : World Transactions π} (h : AllRedeemed env w) (op : Op)
    (paying : ∀ approvalId operatorId, op ≠ .approveRequest approvalId operatorId) :
    AllRedeemed env (MpesaMcp.step env (.inMemory settings verifier provider) op w).2 := by
  obtain ⟨hissued, hextends⟩ := @memory_extends π env settings verifier provider op w h.issued
  have hcalls : w.initiations <+:
      (MpesaMcp.step env (.inMemory settings verifier provider) op w).2.initiations :=
    step_initiations_prefix op w
  refine ⟨hissued, ?_⟩
  intro approvalId b hb
  rcases step_redeems op paying w approvalId b hb with
    stored | ⟨a, stored, payload, attempted⟩ | ⟨pending, named⟩
  · exact (h.redeemed approvalId b stored).later hextends hcalls
  · obtain ⟨request, idempotencyKey, named, -⟩ := h.redeemed approvalId a stored
    exact ⟨request, idempotencyKey, payload ▸ named,
      fun approved => attempted approved request idempotencyKey named⟩
  · obtain ⟨⟨request, idempotencyKey⟩, hnamed⟩ := Option.isSome_iff_exists.mp named
    refine ⟨request, idempotencyKey, hnamed, fun approved => ?_⟩
    cases pending.symm.trans approved

end Step

/-! ## The server -/

variable {ρ : Type} (surroundings : Surroundings)

/-- The server reviews a request only to pay it. -/
theorem ServerInput.Does.paying {server : Server Transactions π ρ} {w : ServerWorld Transactions π ρ}
    {input : ServerInput} {op : Op} (does : input.Does surroundings server w op)
    (approvalId operatorId : String) : op ≠ .approveRequest approvalId operatorId := by
  rintro rfl
  cases input with
  | request sent =>
    obtain ⟨route, authorization, header⟩ := sent
    cases route <;> exact does
  | tool call => cases call <;> exact does

/-- One input of the server keeps every stored request redeemed, since no route and no tool approves
without executing. -/
theorem serverStep_redeemed {server : Server Transactions π ρ} {settings : Settings}
    {verifier : CallbackSourceVerifier} {provider : PaymentProvider π}
    (memory : server.toAppContainer = .inMemory settings verifier provider) (input : ServerInput)
    {w : ServerWorld Transactions π ρ} (h : AllRedeemed surroundings.env w.app) :
    AllRedeemed surroundings.env (serverStep surroundings server input w).2.app := by
  have hdrives := serverStep_drives surroundings server input w
  rw [memory] at hdrives
  refine hdrives.kept (I := AllRedeemed surroundings.env) ?_ ?_ ?_ h
  · intro v a forward hv
    exact ⟨hv.issued.forward forward, hv.redeemed⟩
  · intro m v hm hv
    obtain ⟨hissued, hextends⟩ := @RowStore.handle_extends _ _ surroundings.env
      (.inMemory settings verifier provider) InMemoryTransactionRepository.rowStore m v hv.issued
    have hcalls : v.initiations <+: (handle surroundings.env (.inMemory settings verifier provider) m
      v).2.initiations := handle_initiations_prefix m v
    refine ⟨hissued, fun approvalId a ha => ?_⟩
    rw [handle_approvals_of_reads hm] at ha
    exact (hv.redeemed approvalId a ha).later hextends hcalls
  · intro op does v hv
    exact hv.step op (does.paying surroundings)

/-- **Approved payments are carried out**: in every state that a server over the in-memory repository
comes to, whatever reaches it, every stored request names a payment; if it is approved, a transaction is
stored under the idempotency key of its payload, or the provider was called for exactly its payment and
refused. -/
theorem approved_requests_executed (server : Server Transactions π ρ) (settings : Settings)
    (verifier : CallbackSourceVerifier) (provider : PaymentProvider π)
    (memory : server.toAppContainer = .inMemory settings verifier provider) (state : π) (limiter : ρ)
    (inputs : List ServerInput) :
    let w := final (serverStep surroundings server) (ServerWorld.start Keyed.empty state limiter) inputs
    ∀ approvalId a, w.app.approvals.get approvalId = some a →
      ∃ request idempotencyKey, executablePayload a.payload = some (request, idempotencyKey) ∧
        (a.status = .approved → HasKey idempotencyKey w.app.transactions ∨
          ∃ call ∈ w.app.initiations, call.request = request ∧ ∃ e, call.result = .error e) := by
  intro w
  have hstart : AllRedeemed surroundings.env
      (ServerWorld.start Keyed.empty state limiter : ServerWorld Transactions π ρ).app :=
    ⟨issued_start state, fun _ _ ha => by cases ha⟩
  have hfinal : AllRedeemed surroundings.env w.app :=
    state_invariant (I := fun v : ServerWorld Transactions π ρ => AllRedeemed surroundings.env v.app)
      hstart (fun v input h => serverStep_redeemed surroundings memory input h) inputs
  exact hfinal.redeemed

/-- The payment of `dualApproval`. -/
theorem approved_requests_executed_dual :
    let w := final (serverStep stillSurroundings tokenServer)
      (ServerWorld.start Keyed.empty () Keyed.empty) dualApproval
    ∃ a request idempotencyKey, w.app.approvals.get "1" = some a ∧
      executablePayload a.payload = some (request, idempotencyKey) ∧
      (HasKey idempotencyKey w.app.transactions ∨
        ∃ call ∈ w.app.initiations, call.request = request ∧ ∃ e, call.result = .error e) := by
  intro w
  have happroved : (w.app.approvals.get "1").map (fun a => decide (a.status = .approved)) =
      some true := by
    decide +kernel
  obtain ⟨a, ha, hstatus⟩ := Option.map_eq_some_iff.mp happroved
  obtain ⟨request, idempotencyKey, hnamed, hattempted⟩ := approved_requests_executed stillSurroundings
    tokenServer _ _ _ rfl () Keyed.empty dualApproval "1" a ha
  exact ⟨a, request, idempotencyKey, ha, hnamed, hattempted (of_decide_eq_true hstatus)⟩

end MpesaMcp
