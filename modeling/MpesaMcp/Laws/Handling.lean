import MpesaMcp.App.Container

/-!
# What the services send, and what their messages can change

Each service has a vocabulary: the messages its methods can send. The frame theorems follow from the
vocabularies alone: only the approval service changes approvals, only `_execute_stk_push` calls
`initiate_payment`, and the read-only services change neither a store nor the record of calls.
-/

set_option autoImplicit false

namespace MpesaMcp

open Library Python

@[simp] theorem sends_ask {P : Msg → Prop} (m : Msg) :
    @Prog.Sends Exn Msg Msg.Answer (no_index m.Answer) P (ask m) ↔ P m := Prog.sends_send m

@[simp] theorem sends_lift {α : Type} {P : Msg → Prop} (e : Except Exn α) :
    (StkCallbackHandler.lift e).Sends P := by
  cases e <;> trivial

/-! ## Vocabularies -/

namespace Msg

/-- The messages of the approval service. -/
def OfApprovals : Msg → Prop
  | .now => True
  | .approvals _ => True
  | .logEvent _ => True
  | _ => False

/-- The messages of `_execute_stk_push`. -/
def OfExecution : Msg → Prop
  | .transactions (.findByIdempotencyKey _) => True
  | .transactions (.savePendingTransaction _) => True
  | .provider (.initiatePayment _) => True
  | .logEvent _ => True
  | .increment _ => True
  | _ => False

/-- The messages of the callback handler; its updates are to the status of a result code. -/
def OfHandler : Msg → Prop
  | .transactions (.findByCheckoutRequestId _) => True
  | .transactions (.updateTransactionStatus args) =>
    ∃ resultCode, args.status = (StkCallbackHandler.targetStatus resultCode).value
  | .logEvent _ => True
  | .increment _ => True
  | _ => False

/-- The messages of the callback route, which also asks the replay store. -/
def OfCallback : Msg → Prop
  | .checkAndStore _ _ => True
  | m => m.OfHandler

/-- The messages of receipts, analytics and reconciliation. -/
def OfReading : Msg → Prop
  | .now => True
  | .uuid4 => True
  | .transactions (.findByCheckoutRequestId _) => True
  | .transactions .listTransactions => True
  | .transactions (.listTransactionsByStatus _) => True
  | .transactions (.listTransactionsForDate _) => True
  | .provider (.checkTransactionStatus _) => True
  | .logEvent _ => True
  | .increment _ => True
  | _ => False

/-- A message that leaves the approvals alone. -/
def SparesApprovals : Msg → Prop
  | .approvals _ => False
  | _ => True

/-- A message that is no call of `initiate_payment`. -/
def SparesProvider : Msg → Prop
  | .provider (.initiatePayment _) => False
  | _ => True

/-- The approval service has no message for the provider, so none of its methods can make a payment. -/
theorem OfApprovals.sparesProvider {m : Msg} (h : m.OfApprovals) : m.SparesProvider := by
  cases m <;> trivial

/-- Carrying out a push touches no approval: the request it comes from was written before. -/
theorem OfExecution.sparesApprovals {m : Msg} (h : m.OfExecution) : m.SparesApprovals := by
  cases m <;> trivial

/-- The route runs the handler and adds only the question to the replay store. -/
theorem OfHandler.ofCallback {m : Msg} (h : m.OfHandler) : m.OfCallback := by
  cases m <;> first | exact h | trivial

/-- No callback, accepted or not, touches an approval. -/
theorem OfCallback.sparesApprovals {m : Msg} (h : m.OfCallback) : m.SparesApprovals := by
  cases m <;> trivial

/-- No callback makes a payment: it can only report on one that was made. -/
theorem OfCallback.sparesProvider {m : Msg} (h : m.OfCallback) : m.SparesProvider := by
  cases m <;> trivial

/-- What only reads touches no approval. -/
theorem OfReading.sparesApprovals {m : Msg} (h : m.OfReading) : m.SparesApprovals := by
  cases m <;> trivial

/-- What only reads asks the provider for the status of a payment at most, and never for a payment. -/
theorem OfReading.sparesProvider {m : Msg} (h : m.OfReading) : m.SparesProvider := by
  cases m with
  | provider m => cases m <;> trivial
  | _ => trivial

end Msg

/-! ## The approval service -/

namespace ApprovalService

theorem sends_logAuditEvent (eventType : String) (payload : PyDict) :
    (logAuditEvent eventType payload).Sends Msg.OfApprovals :=
  (sends_ask _).mpr trivial

/-- Whether a request is due is asked of the clock alone. -/
theorem sends_isExpired (approval : ApprovalRequest) :
    (isExpired approval).Sends Msg.OfApprovals := by
  unfold isExpired
  split
  · exact .bind ((sends_ask _).mpr trivial) fun _ => trivial
  · trivial

/-- An expiry reads the clock, writes the request and logs the event about it. -/
theorem sends_expireApproval (approval : ApprovalRequest) :
    (expireApproval approval).Sends Msg.OfApprovals := by
  refine .bind ((sends_ask _).mpr trivial) fun expired => ?_
  cases expired with
  | none => trivial
  | some expired => exact .bind (sends_logAuditEvent _ _) fun _ => trivial

theorem sends_expireEach (approvals : List ApprovalRequest) :
    (expireEach approvals).Sends Msg.OfApprovals := by
  induction approvals with
  | nil => trivial
  | cons approval rest ih =>
    refine .bind (sends_isExpired approval) fun expired => ?_
    split
    · exact .bind (sends_expireApproval approval) fun _ => .bind ih fun _ => trivial
    · exact ih

/-- Expiring what is due is one sweep over the pending requests; it sends nothing else. -/
theorem sends_expireStaleApprovals : expireStaleApprovals.Sends Msg.OfApprovals :=
  .bind ((sends_ask _).mpr trivial) fun approvals => sends_expireEach approvals

theorem sends_dropExpired (approvals : List ApprovalRequest) :
    (dropExpired approvals).Sends Msg.OfApprovals := by
  induction approvals with
  | nil => trivial
  | cons approval rest ih =>
    exact .bind (sends_isExpired approval) fun _ => .bind ih fun _ => trivial

/-- The listing writes too, since it expires what is due before it answers, but it writes approvals
alone. -/
theorem sends_listPendingRequests : listPendingRequests.Sends Msg.OfApprovals :=
  .bind sends_expireStaleApprovals fun _ =>
    .bind ((sends_ask _).mpr trivial) fun approvals => sends_dropExpired approvals

theorem sends_expiredResponse (approval : ApprovalRequest) :
    (expiredResponse approval).Sends Msg.OfApprovals :=
  .bind (sends_expireApproval approval) fun _ => trivial

/-- A review decides on the request and leaves its payment to the payment service. -/
theorem sends_reviewPending (approvalId operatorId : String) (current : ApprovalRequest) :
    (reviewPending approvalId operatorId current).Sends Msg.OfApprovals := by
  unfold reviewPending
  split
  · trivial
  · refine .bind ((sends_ask _).mpr trivial) fun reviewedAt => ?_
    split
    · exact .bind ((sends_ask _).mpr trivial) fun _ =>
        .bind (sends_logAuditEvent _ _) fun _ => trivial
    · exact .bind ((sends_ask _).mpr trivial) fun _ =>
        .bind (sends_logAuditEvent _ _) fun _ => trivial

/-- Approving a request is no payment yet: the approval service has no message for the provider. -/
theorem sends_approveRequest (approvalId operatorId : String) :
    (approveRequest approvalId operatorId).Sends Msg.OfApprovals := by
  refine .bind ((sends_ask _).mpr trivial) fun current => ?_
  cases current with
  | none => trivial
  | some current =>
    refine .bind (sends_isExpired current) fun expired => ?_
    split
    · exact sends_expiredResponse current
    · split
      · trivial
      · exact sends_reviewPending _ _ _

theorem sends_rejectStored (approvalId : String) :
    (rejectStored approvalId).Sends Msg.OfApprovals := by
  refine .bind ((sends_ask _).mpr trivial) fun approval => ?_
  cases approval with
  | none => trivial
  | some approval => exact .bind (sends_logAuditEvent _ _) fun _ => trivial

/-- A rejection, whichever request it names and whatever its status, is written by the approval service
alone. -/
theorem sends_rejectRequest (approvalId : String) :
    (rejectRequest approvalId).Sends Msg.OfApprovals := by
  refine .bind ((sends_ask _).mpr trivial) fun current => ?_
  cases current with
  | none => exact sends_rejectStored approvalId
  | some current =>
    refine .bind (sends_isExpired current) fun expired => ?_
    split
    · exact sends_expiredResponse current
    · exact sends_rejectStored approvalId

end ApprovalService

/-! ## Payments -/

namespace PaymentService

/-- `_execute_stk_push` is where the provider is called; between its lookup by the key and its save it
reads no clock and no approval. -/
theorem sends_executeStkPush (request : InitiatePayment) (idempotencyKey : String) :
    (executeStkPush request idempotencyKey).Sends Msg.OfExecution := by
  refine .bind ((sends_ask _).mpr trivial) fun existing => ?_
  cases existing with
  | some transaction => trivial
  | none =>
    refine .bind (Prog.Sends.attempt ((sends_ask _).mpr trivial)) fun response => ?_
    cases response with
    | error e => exact .bind ((sends_ask _).mpr trivial) fun _ => trivial
    | ok response =>
      exact .bind ((sends_ask _).mpr trivial) fun _ => .bind ((sends_ask _).mpr trivial) fun _ =>
        .bind ((sends_ask _).mpr trivial) fun _ => trivial

/-- An approved payload is rebuilt into a request before it is pushed, and a payload that cannot be
rebuilt sends nothing. -/
theorem sends_executeApprovedStkPush (payload : PyDict) :
    (executeApprovedStkPush payload).Sends Msg.OfExecution := by
  unfold executeApprovedStkPush
  split
  · trivial
  · exact sends_executeStkPush _ _

end PaymentService

/-! ## Callbacks -/

namespace StkCallbackHandler

variable (py : Runtime)

theorem sends_invalidPayloadResult (checkoutRequestId : Option String) :
    (invalidPayloadResult checkoutRequestId).Sends Msg.OfHandler :=
  .bind ((sends_ask _).mpr trivial) fun _ => trivial

/-- The answer to a callback that comes too late counts and logs, and writes no transaction. -/
theorem sends_invalidTransitionResult (e : Exn) (checkoutRequestId : String) (resultCode : Int)
    (resultDescription : String) (metadata : PyDict) :
    (invalidTransitionResult py e checkoutRequestId resultCode resultDescription metadata).Sends
      Msg.OfHandler :=
  .bind (sends_lift _) fun _ => .bind ((sends_ask _).mpr trivial) fun _ => trivial

/-- The branch that writes: its update names the status of the result code, which is what
`Msg.OfHandler` asks of it. -/
theorem sends_applyCallback (checkoutRequestId : String) (resultCode : Int)
    (resultDescription : String) (metadata : PyDict) :
    (applyCallback py checkoutRequestId resultCode resultDescription metadata).Sends
      Msg.OfHandler := by
  refine .bind (Prog.Sends.attempt ((sends_ask _).mpr ⟨resultCode, rfl⟩)) fun updated => ?_
  split
  · exact sends_invalidTransitionResult _ _ _ _ _ _
  · trivial
  · exact .bind (sends_lift _) fun _ => .bind ((sends_ask _).mpr trivial) fun _ => trivial

/-- The checks on a found transaction come before the update and only count and log. -/
theorem sends_checkTransaction (transaction : PendingTransaction) (checkoutRequestId : String)
    (resultCode : Int) (resultDescription : String) (metadata : PyDict) :
    (checkTransaction py transaction checkoutRequestId resultCode resultDescription
      metadata).Sends Msg.OfHandler := by
  unfold checkTransaction
  split
  · exact sends_invalidTransitionResult _ _ _ _ _ _
  · refine .bind (sends_lift _) fun callbackAmount => ?_
    split
    · exact .bind ((sends_ask _).mpr trivial) fun _ => trivial
    · dsimp only
      split
      · exact .bind ((sends_ask _).mpr trivial) fun _ => trivial
      · exact sends_applyCallback _ _ _ _ _

/-- From the fields on, the handler looks the transaction up, and updates it at most once. -/
theorem sends_processFields (callback : PyDict) (checkoutRequestId : String) (resultCode : Int)
    (resultDescription : String) :
    (processFields py callback checkoutRequestId resultCode resultDescription).Sends
      Msg.OfHandler := by
  refine .bind ((sends_ask _).mpr trivial) fun transaction => ?_
  cases transaction with
  | none => exact .bind ((sends_ask _).mpr trivial) fun _ => trivial
  | some transaction =>
    have rest : ∀ complete : Bool,
        (if complete = true then
          checkTransaction py transaction checkoutRequestId resultCode resultDescription
            (extractMetadata callback)
        else invalidPayloadResult (some checkoutRequestId)).Sends Msg.OfHandler := by
      intro complete
      split
      · exact sends_checkTransaction _ _ _ _ _ _
      · exact sends_invalidPayloadResult _
    dsimp only
    split
    · exact .bind (sends_lift _) rest
    · exact .bind trivial rest

/-- Whatever the payload, the handler sends nothing but lookups, updates to the status of a result
code, events and counts. -/
theorem sends_process (payload : PyDict) : (process py payload).Sends Msg.OfHandler := by
  refine .bind ((sends_ask _).mpr trivial) fun _ => ?_
  split
  · exact sends_invalidPayloadResult none
  · refine .bind (sends_lift _) fun resultCode => ?_
    split
    · exact sends_processFields _ _ _ _ _
    · exact sends_invalidPayloadResult _

end StkCallbackHandler

namespace CallbackRoute

variable (py : Runtime) (self : CallbackRoute)

theorem sends_logRejection (eventType reason : String) :
    (logRejection eventType reason).Sends Msg.OfCallback :=
  (sends_ask _).mpr trivial

/-- Comparing the secret logs a rejection at most. -/
theorem sends_validateCallbackSecret (callbackSecret : Option String) :
    (self.validateCallbackSecret callbackSecret).Sends Msg.OfCallback := by
  unfold validateCallbackSecret
  split
  · trivial
  · split
    · trivial
    · have rest : ∀ valid : Bool, (if valid = true then (pure none : App (Option CallbackResponse))
          else do
            logRejection "stk_callback_rejected"
              (if callbackSecret.isNone then "Missing callback shared secret."
                else "Invalid callback shared secret.")
            pure (some (.httpException 401 "Invalid callback credentials."))).Sends
          Msg.OfCallback := by
        intro valid
        split
        · trivial
        · exact .bind (sends_logRejection _ _) fun _ => trivial
      cases callbackSecret with
      | none => exact .bind trivial rest
      | some secret => exact .bind (sends_lift _) rest

/-- A source that is not trusted is logged, and reaches no store. -/
theorem sends_rejectUntrusted (headers : Headers) :
    (self.rejectUntrustedCallbackSourceIfNeeded headers).Sends Msg.OfCallback := by
  refine .bind (sends_lift _) fun decision => ?_
  split
  · trivial
  · exact .bind (sends_logRejection _ _) fun _ => trivial

/-- A replay costs one question to the replay store, which also remembers the key. -/
theorem sends_rejectDuplicate (payload : PyDict) :
    (self.rejectDuplicateCallbackIfNeeded py payload).Sends Msg.OfCallback := by
  unfold rejectDuplicateCallbackIfNeeded
  split
  · refine .bind (Prog.Sends.attempt ((sends_ask _).mpr trivial)) fun decision => ?_
    split
    · exact .bind (sends_logRejection _ _) fun _ => trivial
    · trivial
    · split
      · trivial
      · exact .bind ((sends_ask _).mpr trivial) fun _ => trivial
  · trivial

theorem sends_processCallback (payload : PyDict) :
    (processCallback py payload).Sends Msg.OfHandler := by
  refine .bind (Prog.Sends.attempt (StkCallbackHandler.sends_process py payload)) fun result => ?_
  split
  · trivial
  · exact .bind ((sends_ask _).mpr trivial) fun _ => trivial
  · trivial

/-- What reaches the route stays within the vocabulary of callbacks, however far it gets. -/
theorem sends_post (request : CallbackRequest) : (self.post py request).Sends Msg.OfCallback := by
  refine .bind (self.sends_validateCallbackSecret _) fun response => ?_
  split
  · trivial
  · refine .bind (self.sends_rejectUntrusted _) fun response => ?_
    split
    · trivial
    · refine .bind (self.sends_rejectDuplicate py _) fun response => ?_
      split
      · trivial
      · exact (sends_processCallback py _).mono fun _ => Msg.OfHandler.ofCallback

end CallbackRoute

/-! ## Reading services -/

/-- A receipt is made from the transaction it is given; generating it writes nothing. -/
theorem ReceiptGenerator.sends_generate (transaction : PendingTransaction) :
    (generate transaction).Sends Msg.OfReading := by
  unfold generate
  split
  · trivial
  · split
    · trivial
    · exact .bind ((sends_ask _).mpr trivial) fun _ =>
        .bind ((sends_ask _).mpr trivial) fun _ => trivial

namespace ReceiptService

/-- A receipt by checkout request id is one lookup and what the generator makes of it. -/
theorem sends_generateReceipt (checkoutRequestId : String) :
    (generateReceipt checkoutRequestId).Sends Msg.OfReading := by
  unfold generateReceipt
  split
  · trivial
  · refine .bind ((sends_ask _).mpr trivial) fun transaction => ?_
    cases transaction with
    | none => trivial
    | some transaction =>
      refine .bind (ReceiptGenerator.sends_generate transaction) fun result => ?_
      split
      · trivial
      · exact .bind ((sends_ask _).mpr trivial) fun _ =>
          .bind ((sends_ask _).mpr trivial) fun _ => trivial

theorem sends_generateReceiptByReference (reference : String) :
    (generateReceiptByReference reference).Sends Msg.OfReading := by
  unfold generateReceiptByReference
  split
  · trivial
  · refine .bind ((sends_ask _).mpr trivial) fun transaction => ?_
    cases transaction with
    | some transaction => exact sends_generateReceipt _
    | none =>
      refine .bind ((sends_ask _).mpr trivial) fun candidates => ?_
      split
      · trivial
      · exact sends_generateReceipt _

end ReceiptService

namespace ReconciliationService

variable (self : ReconciliationService)

theorem sends_providerMismatchFindings (transaction : PendingTransaction) :
    (providerMismatchFindings transaction).Sends Msg.OfReading := by
  have status : (providerStatus transaction).Sends Msg.OfReading := by
    refine .bind (Prog.Sends.attempt ((sends_ask _).mpr trivial)) fun response => ?_
    cases response <;> trivial
  refine .bind status fun response => ?_
  cases response with
  | none => trivial
  | some response =>
    dsimp only
    split <;> trivial

theorem sends_stalePendingFindings (transaction : PendingTransaction) (now : Datetime) :
    (self.stalePendingFindings transaction now).Sends Msg.OfReading := by
  unfold stalePendingFindings
  split
  · trivial
  · split
    · trivial
    · split <;> trivial

/-- By induction on the transactions: each asks the provider for its status and looks at the clock that
was read once. -/
theorem sends_reconcileEach (now : Datetime) (transactions : List PendingTransaction) :
    (self.reconcileEach now transactions).Sends Msg.OfReading := by
  induction transactions with
  | nil => trivial
  | cons transaction rest ih =>
    unfold reconcileEach
    split
    · exact .bind (self.sends_stalePendingFindings transaction now) fun _ =>
        .bind (sends_providerMismatchFindings transaction) fun _ => .bind ih fun _ => trivial
    · exact ih

/-- Reconciliation compares and reports; it repairs nothing, and so it writes no transaction. -/
theorem sends_runReconciliation : self.runReconciliation.Sends Msg.OfReading :=
  .bind ((sends_ask _).mpr trivial) fun now => .bind ((sends_ask _).mpr trivial) fun transactions =>
    .bind (self.sends_reconcileEach now transactions) fun _ => trivial

end ReconciliationService

/-! ## The operations -/

theorem AnalyticsService.sends_getTodaySummary : getTodaySummary.Sends Msg.OfReading :=
  .bind ((sends_ask _).mpr trivial) fun _ => .bind ((sends_ask _).mpr trivial) fun _ => trivial

theorem AnalyticsService.sends_getFailedTransactions : getFailedTransactions.Sends Msg.OfReading :=
  (sends_ask _).mpr trivial

/-- An operation ends in the state in which its program ends. -/
theorem step_after {τ π α : Type} (env : Env) (container : AppContainer τ π) {op : Op} {p : App α}
    {reply : α → Reply} (programmed : program container env.toRuntime op = reply <$> p)
    {output : Except Exn α} {w w' : World τ π}
    (ran : Prog.run (handle env container) p w = (output, w')) :
    (step env container op w).2 = w' := by
  rw [step, programmed, Prog.run_map, ran]

/-- What an operation is: a payment, a direct call of the transaction repository, a callback, or a
program of one vocabulary. -/
inductive OpKind {τ π : Type} (container : AppContainer τ π) (py : Runtime) : Op → Prop
  | initiates (args : InitiateStkPush) : OpKind container py (.initiateStkPush args)
  | executes (approvalId operatorId : String) :
      OpKind container py (.executeApprovedPayment approvalId operatorId)
  | saves (args : SavePendingTransaction) : OpKind container py (.savePendingTransaction args)
  | updates (args : UpdateTransactionStatus) : OpKind container py (.updateTransactionStatus args)
  | handles (payload : PyDict) : OpKind container py (.process payload)
  | posts (request : CallbackRequest) : OpKind container py (.postCallback request)
  | reviews {op : Op} (sends : (program container py op).Sends Msg.OfApprovals) :
      OpKind container py op
  | reads {op : Op} (sends : (program container py op).Sends Msg.OfReading) : OpKind container py op

/-- Every operation has one of the kinds, by its constructor. What can be told from the messages of an
operation is told here once. -/
theorem opKind {τ π : Type} (container : AppContainer τ π) (py : Runtime) (op : Op) :
    OpKind container py op := by
  cases op with
  | initiateStkPush args => exact .initiates args
  | executeApprovedPayment approvalId operatorId => exact .executes approvalId operatorId
  | savePendingTransaction args => exact .saves args
  | updateTransactionStatus args => exact .updates args
  | process payload => exact .handles payload
  | postCallback request => exact .posts request
  | approveRequest approvalId operatorId =>
    exact .reviews (.map (ApprovalService.sends_approveRequest approvalId operatorId) _)
  | rejectRequest approvalId =>
    exact .reviews (.map (ApprovalService.sends_rejectRequest approvalId) _)
  | expireStaleApprovals => exact .reviews (.map ApprovalService.sends_expireStaleApprovals _)
  | listPendingRequests => exact .reviews (.map ApprovalService.sends_listPendingRequests _)
  | generateReceipt checkoutRequestId =>
    exact .reads (.map (ReceiptService.sends_generateReceipt checkoutRequestId) _)
  | generateReceiptByReference reference =>
    exact .reads (.map (ReceiptService.sends_generateReceiptByReference reference) _)
  | getTodaySummary => exact .reads (.map AnalyticsService.sends_getTodaySummary _)
  | getFailedTransactions => exact .reads (.map AnalyticsService.sends_getFailedTransactions _)
  | runReconciliation =>
    exact .reads (.map container.reconciliationService.sends_runReconciliation _)

end MpesaMcp
