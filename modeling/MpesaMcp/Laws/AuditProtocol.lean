import MpesaMcp.Laws.Executions
import MpesaMcp.Laws.Identity
import MpesaMcp.Library.Protocol

/-!
# Every write is logged

Every write of a service is followed by the event about it, before the service does anything else: the
save of a push by `stk_push_initiated` and the counter, the update of a callback by
`stk_callback_processed`, the write of an approval by the event that names its new status. `auditAllows`
and `auditMoves` say so as a protocol, and every service keeps to it (`logs_program`).
-/

set_option autoImplicit false

namespace MpesaMcp

open Library Python PaymentService

/-! ## The property -/

/-- A number, or `None`. -/
def optionalNumber : Option Int → PyValue
  | some i => .int i
  | none => .none

/-- The event is about the push that this transaction stores. -/
structure Announces (t : PendingTransaction) (e : AuditEvent) : Prop where
  transactionId : lookup e.payload "transaction_id" = .str t.transactionId
  amount : lookup e.payload "amount" = .int t.amount
  phoneNumber : lookup e.payload "phone_number" = .str t.phoneNumber
  idempotencyKey : lookup e.payload "idempotency_key" = optionalText t.idempotencyKey
  checkoutRequestId : lookup e.payload "checkout_request_id" = .str t.checkoutRequestId

/-- An event goes on announcing a transaction while it keeps its identity, since it names only fields
that no callback changes. -/
theorem Announces.of_same {t u : PendingTransaction} {e : AuditEvent} (h : Announces t e)
    (same : SameIdentity t u) : Announces u e where
  transactionId := same.transactionId ▸ h.transactionId
  amount := same.amount ▸ h.amount
  phoneNumber := same.phoneNumber ▸ h.phoneNumber
  idempotencyKey := same.idempotencyKey ▸ h.idempotencyKey
  checkoutRequestId := same.checkoutRequestId ▸ h.checkoutRequestId

/-- The event tells what the callback stored in this transaction. -/
structure Settles (t : PendingTransaction) (e : AuditEvent) : Prop where
  status : lookup e.payload "status" = .str t.status.value
  resultCode : lookup e.payload "result_code" = optionalNumber t.resultCode
  mpesaReceiptNumber : lookup e.payload "mpesa_receipt_number" = optionalText t.mpesaReceiptNumber

/-- The events that name a status of an approval. -/
def ApprovalStatus.eventTypes : ApprovalStatus → List String
  | .pending => ["approval_created", "approval_partially_approved"]
  | .approved => ["approval_approved"]
  | .rejected => ["approval_rejected"]
  | .expired => ["approval_expired"]

/-- The event names the status of the approval and, where it has them, its status text and its number of
reviews. -/
structure NamesStatus (a : ApprovalRequest) (e : AuditEvent) : Prop where
  eventType : e.eventType ∈ a.status.eventTypes
  status : lookup e.payload "status" = .none ∨ lookup e.payload "status" = .str a.status.value
  reviewCount : lookup e.payload "review_count" = .none ∨
    lookup e.payload "review_count" = .int a.reviewCount

/-- The events about pushes. -/
def pushEvents (events : List AuditEvent) : List AuditEvent :=
  events.filter fun e => decide (e.eventType = "stk_push_initiated")

/-- The events that carry this transaction as processed. -/
def processedEvents (transactionId : String) (events : List AuditEvent) : List AuditEvent :=
  events.filter fun e => decide (e.eventType = "stk_callback_processed" ∧
    (lookup e.payload "transaction_id").asStr? = some transactionId)

/-- The `approval_*` events that carry this approval. -/
def approvalEvents (approvalId : String) (events : List AuditEvent) : List AuditEvent :=
  events.filter fun e => decide ("approval_".toList <+: e.eventType.toList ∧
    (lookup e.payload "approval_id").asStr? = some approvalId)

/-- No event carries a pending transaction as processed; one event carries a settled one, and tells what
is stored. -/
structure SettledBy (t : PendingTransaction) (events : List AuditEvent) : Prop where
  pending : t.status = .pending → processedEvents t.transactionId events = []
  settled : t.status ≠ .pending → ∃ e, processedEvents t.transactionId events = [e] ∧ Settles t e

/-- Events of another kind, or about another transaction, have no part in what settles this one. -/
theorem SettledBy.congr {t : PendingTransaction} {events events' : List AuditEvent}
    (h : SettledBy t events)
    (same : processedEvents t.transactionId events' = processedEvents t.transactionId events) :
    SettledBy t events' := by
  refine ⟨fun hpending => same.trans (h.pending hpending), fun hsettled => ?_⟩
  obtain ⟨e, he, hsettles⟩ := h.settled hsettled
  exact ⟨e, same.trans he, hsettles⟩

/-- The last event about the approval names its status. -/
def ReviewedBy (a : ApprovalRequest) (events : List AuditEvent) : Prop :=
  ∃ e, (approvalEvents a.approvalId events).getLast? = some e ∧ NamesStatus a e

/-- The log determines the state: the transactions, each under an id of its own, and the events about
pushes correspond one to one, and so does the counter; the processed events tell which transactions are
settled, and how; the last event about an approval tells its status. -/
structure Audited {π : Type} (w : World Transactions π) : Prop where
  pushes : List.Forall₂ Announces w.transactions.values (pushEvents w.auditEvents)
  distinct : (w.transactions.values.map PendingTransaction.transactionId).Nodup
  counted : w.metrics.successfulPaymentCount = w.transactions.values.length
  settled : ∀ t ∈ w.transactions.values, SettledBy t w.auditEvents
  reviewed : ∀ a ∈ w.approvals.values, ReviewedBy a w.auditEvents

/-- The operations whose writes are audited: all but the calls of the repository itself. -/
def Op.Audited : Op → Prop
  | .initiateStkPush _ => True
  | .executeApprovedPayment _ _ => True
  | .approveRequest _ _ => True
  | .rejectRequest _ => True
  | .expireStaleApprovals => True
  | .listPendingRequests => True
  | .process _ => True
  | .postCallback _ => True
  | _ => False

/-! ## The protocol -/

/-- What a service owes the log. -/
inductive AuditStage
  | quiet
  /-- A push is stored. -/
  | stored (t : PendingTransaction)
  /-- Its event is logged, and the counter is behind. -/
  | announced
  /-- A callback changed this transaction. -/
  | settled (t : PendingTransaction)
  /-- This approval was written. -/
  | reviewed (a : ApprovalRequest)

/-- An event that says nothing about a push, a processed transaction or an approval. -/
structure AuditEvent.Aside (e : AuditEvent) : Prop where
  noPush : e.eventType ≠ "stk_push_initiated"
  noTransaction : e.eventType = "stk_callback_processed" → lookup e.payload "transaction_id" = .none
  noApproval : ¬ "approval_".toList <+: e.eventType.toList

/-- What may be sent: a write only while nothing is owed, and then the event about it. -/
def auditAllows : AuditStage → Msg → Prop
  | .quiet, .logEvent e => e.Aside
  | .quiet, .increment counter => counter ≠ .successfulPayment
  | .quiet, _ => True
  | .stored t, .logEvent e => e.eventType = "stk_push_initiated" ∧ Announces t e
  | .announced, .increment counter => counter = .successfulPayment
  | .settled t, .logEvent e => e.eventType = "stk_callback_processed" ∧
      lookup e.payload "transaction_id" = .str t.transactionId ∧ Settles t e
  | .reviewed a, .logEvent e => lookup e.payload "approval_id" = .str a.approvalId ∧ NamesStatus a e
  | _, _ => False

/-- What the answers of the in-memory stores leave to be logged. -/
def auditMoves : AuditStage → (m : Msg) → Except Exn m.Answer → AuditStage → Prop
  | .quiet, .transactions (.savePendingTransaction args), r, stage =>
    ∃ id createdAt updatedAt, r = .ok (args.record id createdAt updatedAt) ∧
      stage = .stored (args.record id createdAt updatedAt)
  | .quiet, .transactions (.updateTransactionStatus args), r, stage =>
    (stage = .quiet ∧ ∀ t, r ≠ .ok (some t)) ∨
      ∃ t, r = .ok (some t) ∧ stage = .settled t ∧ t.status.value = args.status ∧
        t.resultCode = some args.resultCode ∧ t.mpesaReceiptNumber = args.mpesaReceiptNumber
  | .quiet, .approvals (.create _), r, stage =>
    ∃ a, r = .ok a ∧ a.status = .pending ∧ stage = .reviewed a
  | .quiet, .approvals (.get approvalId), r, stage =>
    stage = .quiet ∧ ∃ found, r = .ok found ∧ ∀ a, found = some a → a.approvalId = approvalId
  | .quiet, .approvals (.updateStatus approvalId status), r, stage =>
    (stage = .quiet ∧ r = .ok none) ∨
      ∃ a, r = .ok (some a) ∧ a.approvalId = approvalId ∧ a.status = status ∧ stage = .reviewed a
  | .quiet, .approvals (.save approval), r, stage => r = .ok approval ∧ stage = .reviewed approval
  | .stored _, .logEvent _, r, stage => r = .ok () ∧ stage = .announced
  | _, _, _, stage => stage = .quiet

/-- The protocol of the services. -/
def auditProtocol : Protocol Exn Msg.Answer AuditStage where
  allows := auditAllows
  moves := auditMoves
  raises stage _ := stage = .quiet

/-- From this stage on the program logs what is owed, and leaves nothing unlogged. -/
def LogsFrom {α : Type} (stage : AuditStage) (p : App α) : Prop :=
  p.Follows auditProtocol (fun stage _ => stage = .quiet) stage

/-- The program leaves nothing unlogged. -/
abbrev Logs {α : Type} (p : App α) : Prop := LogsFrom .quiet p

/-- A message that writes nothing the log tells of. -/
def Msg.Quiet : Msg → Prop
  | .logEvent e => e.Aside
  | .increment counter => counter ≠ .successfulPayment
  | .transactions (.savePendingTransaction _) => False
  | .transactions (.updateTransactionStatus _) => False
  | .approvals (.create _) => False
  | .approvals (.updateStatus _ _) => False
  | .approvals (.save _) => False
  | _ => True

section Logs

variable {α β : Type}

/-- A part that ends with nothing owed may be followed by any part that starts so. -/
theorem LogsFrom.bind {stage : AuditStage} {p : App α} {f : α → App β} (hp : LogsFrom stage p)
    (hf : ∀ a, Logs (f a)) : LogsFrom stage (p >>= f) := by
  refine Prog.Follows.bind hp fun stage a hstage => ?_
  subst hstage
  exact hf a

theorem LogsFrom.pure (a : α) : Logs (pure a : App α) := Prog.follows_pure rfl

/-- Nothing is owed where a service raises before its first write. -/
theorem LogsFrom.raise (e : Exn) : Logs (.raise e : App α) := rfl

theorem LogsFrom.map {p : App α} (hp : Logs p) (g : α → β) : Logs (g <$> p) :=
  Prog.Follows.map hp fun _ _ h => h

theorem LogsFrom.lift (e : Except Exn α) : Logs (StkCallbackHandler.lift e) := by
  cases e with
  | ok a => exact .pure a
  | error e => exact .raise e

/-- A caught exception owes what the program owed when it raised, which is nothing. -/
theorem LogsFrom.attempt {p : App α} (hp : Logs p) : Logs p.attempt :=
  Prog.Follows.attempt hp (fun _ _ h => h) fun _ _ h => h

/-- Messages that write nothing the log tells of. -/
theorem LogsFrom.of_sends {p : App α} (hp : p.Sends Msg.Quiet) : Logs p := by
  refine hp.follows (fun _ => rfl) (fun m hm => ?_) fun m r stage hm hmove => ?_
  · cases m <;> first | exact hm | trivial
  · cases m with
    | transactions m => cases m <;> first | exact hmove | exact absurd hm id
    | approvals m =>
      cases m with
      | get approvalId => exact hmove.1
      | listPending => exact hmove
      | _ => exact absurd hm id
    | _ => exact hmove

/-- A message that writes nothing may stand anywhere between two writes. -/
theorem LogsFrom.ask {m : Msg} (hm : m.Quiet) : Logs (ask m) := .of_sends ((sends_ask m).mpr hm)

/-- The lookup of an approval. -/
theorem logs_get {approvalId : String} {f : Option ApprovalRequest → App α}
    (h : ∀ found, (∀ a, found = some a → a.approvalId = approvalId) → Logs (f found)) :
    Logs (MpesaMcp.ask (.approvals (.get approvalId)) >>= f) := by
  refine Prog.Follows.bind (Q := fun stage found => stage = AuditStage.quiet ∧
    ∀ a, found = some a → a.approvalId = approvalId) (Prog.follows_send trivial ?_ ?_) ?_
  · rintro e _ ⟨hstage, -⟩
    exact hstage
  · rintro found _ ⟨hstage, _, ⟨⟩, habout⟩
    exact ⟨hstage, habout⟩
  · rintro _ found ⟨rfl, habout⟩
    exact h found habout

/-- A change of status, and the event about it. -/
theorem logs_updateStatus {approvalId : String} {status : ApprovalStatus}
    {f : Option ApprovalRequest → App α} (missing : Logs (f none))
    (written : ∀ a, a.approvalId = approvalId → a.status = status →
      LogsFrom (.reviewed a) (f (some a))) :
    Logs (MpesaMcp.ask (.approvals (.updateStatus approvalId status)) >>= f) := by
  refine Prog.Follows.bind (Q := fun stage updated => (stage = AuditStage.quiet ∧ updated = none) ∨
    ∃ a, updated = some a ∧ a.approvalId = approvalId ∧ a.status = status ∧ stage = .reviewed a)
    (Prog.follows_send trivial ?_ ?_) ?_
  · rintro e _ (⟨hstage, -⟩ | ⟨_, ⟨⟩, -⟩)
    exact hstage
  · rintro updated _ (⟨hstage, ⟨⟩⟩ | ⟨a, ⟨⟩, habout, hstatus, hstage⟩)
    · exact Or.inl ⟨hstage, rfl⟩
    · exact Or.inr ⟨a, rfl, habout, hstatus, hstage⟩
  · rintro _ _ (⟨rfl, rfl⟩ | ⟨a, rfl, habout, hstatus, rfl⟩)
    · exact missing
    · exact written a habout hstatus

/-- A save, and the event about it. -/
theorem logs_save {record : ApprovalRequest} {f : ApprovalRequest → App α}
    (written : LogsFrom (.reviewed record) (f record)) :
    Logs (MpesaMcp.ask (.approvals (.save record)) >>= f) := by
  refine Prog.Follows.bind (Q := fun stage saved => saved = record ∧ stage = AuditStage.reviewed record)
    (Prog.follows_send trivial ?_ ?_) ?_
  · rintro e _ ⟨⟨⟩, -⟩
  · rintro saved _ ⟨⟨⟩, hstage⟩
    exact ⟨rfl, hstage⟩
  · rintro _ _ ⟨rfl, rfl⟩
    exact written

/-- The event about an approval that was written. -/
theorem logsFrom_reviewed {a : ApprovalRequest} {eventType : String} {payload : PyDict}
    {f : Unit → App α} (about : lookup payload "approval_id" = .str a.approvalId)
    (names : NamesStatus a ⟨eventType, payload, some "operator"⟩) (hf : ∀ u, Logs (f u)) :
    LogsFrom (.reviewed a) (ApprovalService.logAuditEvent eventType payload >>= f) := by
  refine LogsFrom.bind ?_ hf
  exact Prog.follows_send ⟨about, names⟩ (fun _ _ hmove => hmove) fun _ _ hmove => hmove

end Logs

/-! ## The approval service -/

namespace ApprovalService

theorem logs_isExpired (approval : ApprovalRequest) : Logs (isExpired approval) := by
  unfold isExpired
  split
  · exact .bind (.ask trivial) fun now => .pure _
  · exact .pure _

/-- A request is logged as created after it is stored; its status is still the one it was stored with. -/
theorem logs_createApprovalRequest (self : ApprovalService) (action : String) (payload : PyDict)
    (reason : String) : Logs (self.createApprovalRequest action payload reason) := by
  refine .bind (.ask trivial) fun createdAt => ?_
  split
  · exact .raise _
  · refine Prog.Follows.bind (Q := fun stage a => a.status = .pending ∧ stage = AuditStage.reviewed a)
      (Prog.follows_send trivial ?_ ?_) ?_
    · rintro e _ ⟨a, ⟨⟩, -⟩
    · rintro a _ ⟨_, ⟨⟩, hpending, hstage⟩
      exact ⟨hpending, hstage⟩
    · rintro _ a ⟨hpending, rfl⟩
      refine logsFrom_reviewed rfl ⟨?_, Or.inr rfl, Or.inl rfl⟩ fun _ => .pure a
      rw [hpending]
      exact List.mem_cons_self

/-- An expiry is written and then logged, as the write of an approval. -/
theorem logs_expireApproval (approval : ApprovalRequest) : Logs (expireApproval approval) := by
  refine logs_updateStatus (.pure approval) fun a habout hstatus => ?_
  refine logsFrom_reviewed (congrArg PyValue.str habout.symm) ⟨?_, Or.inr rfl, Or.inl rfl⟩
    fun _ => .pure a
  rw [hstatus]
  exact List.mem_cons_self

/-- By induction on the requests: each is written and logged before the next one is looked at. -/
theorem logs_expireEach (approvals : List ApprovalRequest) : Logs (expireEach approvals) := by
  induction approvals with
  | nil => exact .pure 0
  | cons approval rest ih =>
    refine .bind (logs_isExpired approval) fun expired => ?_
    split
    · exact .bind (logs_expireApproval approval) fun _ => .bind ih fun _ => .pure _
    · exact ih

theorem logs_expireStaleApprovals : Logs expireStaleApprovals :=
  .bind (.ask trivial) fun approvals => logs_expireEach approvals

theorem logs_dropExpired (approvals : List ApprovalRequest) : Logs (dropExpired approvals) := by
  induction approvals with
  | nil => exact .pure []
  | cons approval rest ih =>
    exact .bind (logs_isExpired approval) fun _ => .bind ih fun _ => .pure _

theorem logs_listPendingRequests : Logs listPendingRequests :=
  .bind logs_expireStaleApprovals fun _ => .bind (.ask trivial) fun approvals =>
    logs_dropExpired approvals

theorem logs_expiredResponse (approval : ApprovalRequest) : Logs (expiredResponse approval) :=
  .bind (logs_expireApproval approval) fun _ => .pure _

/-- A review writes the request once and logs what it came to: partially approved short of the quorum,
approved with it. The write and the event name the same status, for the event is chosen by the request
that was written. -/
theorem logs_reviewPending {approvalId operatorId : String} {current : ApprovalRequest}
    (about : current.approvalId = approvalId) (pending : current.status = .pending) :
    Logs (reviewPending approvalId operatorId current) := by
  unfold reviewPending
  split
  · exact .pure _
  · refine .bind (.ask trivial) fun reviewedAt => ?_
    split
    · refine logs_save (logsFrom_reviewed (congrArg PyValue.str about.symm)
        ⟨?_, Or.inl rfl, Or.inr rfl⟩ fun _ => .pure _)
      rw [pending]
      exact List.mem_cons_of_mem _ List.mem_cons_self
    · exact logs_save (logsFrom_reviewed (congrArg PyValue.str about.symm)
        ⟨List.mem_cons_self, Or.inr rfl, Or.inr rfl⟩ fun _ => .pure _)

/-- Every way through `approve_request` logs what it wrote: an expiry found on the way as much as a
review. -/
theorem logs_approveRequest (approvalId operatorId : String) :
    Logs (approveRequest approvalId operatorId) := by
  refine logs_get fun found habout => ?_
  cases found with
  | none => exact .pure _
  | some current =>
    refine .bind (logs_isExpired current) fun expired => ?_
    split
    · exact logs_expiredResponse current
    · split
      · exact .pure _
      next hpending => exact logs_reviewPending (habout current rfl) (not_not.mp hpending)

theorem logs_rejectStored (approvalId : String) : Logs (rejectStored approvalId) := by
  refine logs_updateStatus (.pure _) fun a habout hstatus => ?_
  refine logsFrom_reviewed (congrArg PyValue.str habout.symm) ⟨?_, Or.inr rfl, Or.inl rfl⟩
    fun _ => .pure _
  rw [hstatus]
  exact List.mem_cons_self

/-- A rejection is logged whether the request was pending or decided before. -/
theorem logs_rejectRequest (approvalId : String) : Logs (rejectRequest approvalId) := by
  refine .bind (.ask trivial) fun found => ?_
  cases found with
  | none => exact logs_rejectStored approvalId
  | some current =>
    refine .bind (logs_isExpired current) fun expired => ?_
    split
    · exact logs_expiredResponse current
    · exact logs_rejectStored approvalId

end ApprovalService

/-! ## Payments -/

namespace PaymentService

/-- What the provider answered is stored, announced and counted. -/
theorem logs_recordInitiation (request : InitiatePayment) (idempotencyKey : String)
    (response : PaymentInitiationResponse) :
    Logs (recordInitiation request idempotencyKey response) := by
  refine Prog.Follows.bind (Q := fun stage t => stage = AuditStage.stored t ∧
    ∃ id createdAt updatedAt,
      t = (saveArguments request idempotencyKey response).record id createdAt updatedAt)
    (Prog.follows_send trivial ?_ ?_) ?_
  · rintro e _ ⟨_, _, _, ⟨⟩, -⟩
  · rintro t _ ⟨id, createdAt, updatedAt, ⟨⟩, hstage⟩
    exact ⟨hstage, id, createdAt, updatedAt, rfl⟩
  · rintro _ t ⟨rfl, id, createdAt, updatedAt, rfl⟩
    refine Prog.Follows.bind (Q := fun stage _ => stage = AuditStage.announced)
      (Prog.follows_send ⟨rfl, rfl, rfl, rfl, rfl, rfl⟩ ?_ fun _ _ hmove => hmove.2) ?_
    · rintro e _ ⟨⟨⟩, -⟩
    · rintro _ _ rfl
      exact LogsFrom.bind (Prog.follows_send rfl (fun _ _ hmove => hmove) fun _ _ hmove => hmove)
        fun _ => .pure _

/-- A push that is saved is announced and counted before anything else happens; one that finds its key
taken, or that the provider refuses, saves nothing and owes nothing. -/
theorem logs_executeStkPush (request : InitiatePayment) (idempotencyKey : String) :
    Logs (executeStkPush request idempotencyKey) := by
  refine .bind (.ask trivial) fun found => ?_
  cases found with
  | some transaction => exact .pure _
  | none =>
    refine .bind (LogsFrom.attempt (.ask trivial)) fun answer => ?_
    cases answer with
    | error e => exact .bind (.ask nofun) fun _ => .pure _
    | ok response => exact logs_recordInitiation request idempotencyKey response

theorem logs_executeApprovedStkPush (payload : PyDict) : Logs (executeApprovedStkPush payload) := by
  unfold executeApprovedStkPush
  split
  · exact .pure _
  · exact logs_executeStkPush _ _

/-- Whatever the rules decide of a request, nothing stays unlogged: it is refused, kept for an approval
that is created and logged, or carried out. -/
theorem logs_initiateStkPush (py : Runtime) (self : PaymentService) (args : InitiateStkPush) :
    Logs (self.initiateStkPush py args) := by
  unfold initiateStkPush
  dsimp only
  split
  · cases requestedPayment args with
    | none => exact .pure _
    | some request =>
      exact .bind (self.approvalService.logs_createApprovalRequest _ _ _) fun _ =>
        .bind (.ask nofun) fun _ => .pure _
  · split
    · exact .pure _
    · cases requestedPayment args with
      | none => exact .pure _
      | some request => exact logs_executeStkPush _ _

/-- The review is logged before the push starts, so an exception of the provider leaves the log
complete. -/
theorem logs_executeApprovedPayment (approvalId operatorId : String) :
    Logs (executeApprovedPayment approvalId operatorId) := by
  refine .bind (.ask trivial) fun found => ?_
  cases found with
  | none => exact .pure _
  | some approval =>
    refine .bind (ApprovalService.logs_isExpired approval) fun expired => ?_
    split
    · exact .bind ApprovalService.logs_expireStaleApprovals fun _ =>
        .bind (.ask trivial) fun _ => .pure _
    · split
      · exact .pure _
      · refine .bind (ApprovalService.logs_approveRequest _ _) fun response => ?_
        split
        · exact .pure _
        · split
          · exact .pure _
          · exact .bind (logs_executeApprovedStkPush _) fun _ => .pure _

end PaymentService

/-! ## Callbacks -/

/-- A field of the dump, where it is present, ends the lookup of its name. -/
theorem lookup_field {α : Type} (name : String) (value : Option α) (f : α → PyValue)
    (rest : PyDict) :
    lookup (value.toList.map (fun a => (name, f a)) ++ rest) name =
      value.elim (lookup rest name) f := by
  cases value with
  | none => rfl
  | some a => simp [lookup]

/-- An optional field is looked up past where it has another name, present or not. -/
theorem lookup_field_of_ne {α : Type} {name key : String} (h : name ≠ key) (value : Option α)
    (f : α → PyValue) (rest : PyDict) :
    lookup (value.toList.map (fun a => (name, f a)) ++ rest) key = lookup rest key := by
  cases value with
  | none => rfl
  | some a => simp [lookup, h]

/-- What the dump of a result holds. -/
theorem lookup_modelDump (result : CallbackProcessingResult) :
    lookup result.modelDump "status" = .str result.status.value ∧
    lookup result.modelDump "result_code" = optionalNumber result.resultCode ∧
    lookup result.modelDump "mpesa_receipt_number" = optionalText result.mpesaReceiptNumber ∧
    lookup result.modelDump "transaction_id" = optionalText result.transactionId := by
  have hhead : ∀ {key : String} {rest : PyDict}, key ≠ "status" → key ≠ "success" → key ≠ "reason" →
      lookup ([("status", .str result.status.value), ("success", .bool result.success),
        ("reason", .str result.reason)] ++ rest) key = lookup rest key := by
    intro key rest h₁ h₂ h₃
    simp [lookup, Ne.symm h₁, Ne.symm h₂, Ne.symm h₃]
  have hlast : lookup (result.transactionId.toList.map fun s => ("transaction_id", .str s))
      "transaction_id" = optionalText result.transactionId := by
    have h := lookup_field "transaction_id" result.transactionId .str []
    rw [List.append_nil] at h
    rw [h]
    cases result.transactionId <;> rfl
  have hnone : ∀ key, "transaction_id" ≠ key →
      lookup (result.transactionId.toList.map fun s => ("transaction_id", .str s)) key = .none := by
    intro key hkey
    have h := lookup_field_of_ne hkey result.transactionId .str []
    rwa [List.append_nil] at h
  simp only [CallbackProcessingResult.modelDump, List.append_assoc]
  refine ⟨rfl, ?_, ?_, ?_⟩
  · rw [hhead (by decide) (by decide) (by decide), lookup_field_of_ne (by decide), lookup_field,
      lookup_field_of_ne (by decide), lookup_field_of_ne (by decide), lookup_field_of_ne (by decide),
      lookup_field_of_ne (by decide), hnone _ (by decide)]
    cases result.resultCode <;> rfl
  · rw [hhead (by decide) (by decide) (by decide), lookup_field_of_ne (by decide),
      lookup_field_of_ne (by decide), lookup_field_of_ne (by decide), lookup_field,
      lookup_field_of_ne (by decide), lookup_field_of_ne (by decide), hnone _ (by decide)]
    cases result.mpesaReceiptNumber <;> rfl
  · rw [hhead (by decide) (by decide) (by decide), lookup_field_of_ne (by decide),
      lookup_field_of_ne (by decide), lookup_field_of_ne (by decide), lookup_field_of_ne (by decide),
      lookup_field_of_ne (by decide), lookup_field_of_ne (by decide), hlast]

/-- An event of a rejected callback. -/
theorem AuditEvent.Aside.of_rejection {eventType : String} {payload : PyDict} {actor : Option String}
    (noPush : eventType ≠ "stk_push_initiated")
    (noTransaction : eventType ≠ "stk_callback_processed")
    (noApproval : ¬ "approval_".toList <+: eventType.toList) :
    AuditEvent.Aside ⟨eventType, payload, actor⟩ :=
  ⟨noPush, fun h => absurd h noTransaction, noApproval⟩

/-- An event of a callback that changed no transaction. -/
theorem AuditEvent.Aside.of_unmatched {payload : PyDict} {actor : Option String}
    (h : lookup payload "transaction_id" = .none) :
    AuditEvent.Aside ⟨"stk_callback_processed", payload, actor⟩ :=
  ⟨(by decide : "stk_callback_processed" ≠ "stk_push_initiated"), fun _ => h,
    (by decide : ¬ "approval_".toList <+: "stk_callback_processed".toList)⟩

/-- The texts of the update and of the result are the same. -/
theorem targetOutcome_value (resultCode : Int) :
    (StkCallbackHandler.targetOutcome resultCode).value =
      (StkCallbackHandler.targetStatus resultCode).value := by
  unfold StkCallbackHandler.targetOutcome StkCallbackHandler.targetStatus
  split <;> rfl

namespace StkCallbackHandler

variable (py : Runtime)

/-- A payload that is not understood leaves an event that names no transaction. -/
theorem logs_invalidPayloadResult (checkoutRequestId : Option String) :
    Logs (invalidPayloadResult checkoutRequestId) :=
  .bind (.ask (.of_rejection (by decide) (by decide) (by decide))) fun _ => .pure _

/-- A callback for an unknown transaction is logged with no transaction id, so it settles none. -/
theorem logs_unknownTransactionResult (checkoutRequestId : String) :
    Logs (unknownTransactionResult checkoutRequestId) :=
  .bind (.ask (.of_rejection (by decide) (by decide) (by decide))) fun _ => .pure _

/-- A late callback is logged under a type of its own, so that it does not read as processed. -/
theorem logs_invalidTransitionResult (e : Exn) (checkoutRequestId : String) (resultCode : Int)
    (resultDescription : String) (metadata : PyDict) :
    Logs (invalidTransitionResult py e checkoutRequestId resultCode resultDescription metadata) :=
  .bind (.lift _) fun _ =>
    .bind (.ask (.of_rejection (by decide) (by decide) (by decide))) fun _ => .pure _

/-- The update of a callback, whose amount can be read, and the event about it. -/
theorem logs_applyCallback (checkoutRequestId : String) (resultCode : Int)
    (resultDescription : String) (metadata : PyDict) {amount : Option Int}
    (readable : getInt metadata "Amount" = .ok amount) :
    Logs (applyCallback py checkoutRequestId resultCode resultDescription metadata) := by
  unfold applyCallback
  refine Prog.Follows.bind (Q := fun stage (answer : Except Exn (Option PendingTransaction)) =>
    (stage = AuditStage.quiet ∧ ∀ t, answer ≠ .ok (some t)) ∨
      ∃ t, answer = .ok (some t) ∧ stage = .settled t ∧
        t.status.value = (targetStatus resultCode).value ∧ t.resultCode = some resultCode ∧
        t.mpesaReceiptNumber = getString py metadata "MpesaReceiptNumber")
    (Prog.follows_attempt trivial fun _ _ hmove => hmove) ?_
  rintro _ answer (⟨rfl, hnone⟩ | ⟨t, rfl, rfl, hstatus, hcode, hreceipt⟩)
  · show Logs _
    split
    · exact logs_invalidTransitionResult py _ _ _ _ _
    · exact .raise _
    next updated =>
      cases updated with
      | some t => exact absurd rfl (hnone t)
      | none =>
        refine .bind (.lift _) fun amount => .bind (.ask (.of_unmatched ?_)) fun _ => .pure _
        exact (lookup_modelDump _).2.2.2
  · dsimp only
    rw [readable]
    obtain ⟨hdumped, hnumber, htext, hid⟩ := lookup_modelDump {
      status := targetOutcome resultCode
      success := decide (resultCode = 0)
      reason := resultDescription
      checkoutRequestId := some checkoutRequestId
      resultCode := some resultCode
      resultDescription := some resultDescription
      mpesaReceiptNumber := getString py metadata "MpesaReceiptNumber"
      phoneNumber := getString py metadata "PhoneNumber"
      amount := amount
      transactionId := some t.transactionId }
    refine LogsFrom.bind (p := ask (.logEvent _)) (Prog.follows_send ⟨rfl, hid, ⟨?_, ?_, ?_⟩⟩
      (fun _ _ hmove => hmove) fun _ _ hmove => hmove) fun _ => .pure _
    · exact hdumped.trans (by rw [targetOutcome_value, hstatus])
    · exact hnumber.trans (by rw [hcode])
    · exact htext.trans (by rw [hreceipt])

/-- What the handler says of a mismatch is aside. Only the branch that updates the transaction owes an
event, and it is logged at once. -/
theorem logs_checkTransaction (transaction : PendingTransaction) (checkoutRequestId : String)
    (resultCode : Int) (resultDescription : String) (metadata : PyDict) :
    Logs (checkTransaction py transaction checkoutRequestId resultCode resultDescription metadata) := by
  unfold checkTransaction
  split
  · exact logs_invalidTransitionResult py _ _ _ _ _
  · cases hamount : getInt metadata "Amount" with
    | error e => exact .raise e
    | ok amount =>
      refine LogsFrom.bind (.pure amount) fun _ => ?_
      dsimp only
      split
      · exact .bind (.ask (.of_rejection (by decide) (by decide) (by decide))) fun _ => .pure _
      · split
        · exact .bind (.ask (.of_rejection (by decide) (by decide) (by decide))) fun _ => .pure _
        · exact logs_applyCallback py _ _ _ _ hamount

theorem logs_processFields (callback : PyDict) (checkoutRequestId : String) (resultCode : Int)
    (resultDescription : String) :
    Logs (processFields py callback checkoutRequestId resultCode resultDescription) := by
  refine .bind (.ask trivial) fun found => ?_
  cases found with
  | none => exact logs_unknownTransactionResult _
  | some transaction =>
    have rest : ∀ complete : Bool,
        Logs (if complete = true then
          checkTransaction py transaction checkoutRequestId resultCode resultDescription
            (extractMetadata callback)
        else invalidPayloadResult (some checkoutRequestId)) := by
      intro complete
      split
      · exact logs_checkTransaction py _ _ _ _ _
      · exact logs_invalidPayloadResult _
    dsimp only
    split
    · exact .bind (.lift _) rest
    · exact .bind (.pure true) rest

/-- Whatever the payload, and wherever the handler stops, it owes the log nothing in the end: an update
is followed by the event that carries its transaction as processed, and no other branch writes one. -/
theorem logs_process (payload : PyDict) : Logs (process py payload) := by
  refine .bind (.ask nofun) fun _ => ?_
  split
  · exact logs_invalidPayloadResult none
  · refine .bind (.lift _) fun resultCode => ?_
    split
    · exact logs_processFields py _ _ _ _
    · exact logs_invalidPayloadResult _

end StkCallbackHandler

namespace CallbackRoute

variable (py : Runtime) (self : CallbackRoute)

theorem logs_validateCallbackSecret (callbackSecret : Option String) :
    Logs (self.validateCallbackSecret callbackSecret) := by
  unfold validateCallbackSecret
  split
  · exact .pure none
  · split
    · exact .pure none
    · have rest : ∀ valid : Bool, Logs (if valid = true then (pure none : App (Option CallbackResponse))
          else do
            logRejection "stk_callback_rejected"
              (if callbackSecret.isNone then "Missing callback shared secret."
                else "Invalid callback shared secret.")
            pure (some (.httpException 401 "Invalid callback credentials."))) := by
        intro valid
        split
        · exact .pure none
        · exact .bind (.ask (.of_rejection (by decide) (by decide) (by decide))) fun _ => .pure _
      cases callbackSecret with
      | none => exact .bind (.pure false) rest
      | some secret => exact .bind (.lift _) rest

theorem logs_rejectUntrusted (headers : Headers) :
    Logs (self.rejectUntrustedCallbackSourceIfNeeded headers) := by
  refine .bind (.lift _) fun decision => ?_
  split
  · exact .pure none
  · exact .bind (.ask (.of_rejection (by decide) (by decide) (by decide))) fun _ => .pure _

theorem logs_rejectDuplicate (payload : PyDict) :
    Logs (self.rejectDuplicateCallbackIfNeeded py payload) := by
  unfold rejectDuplicateCallbackIfNeeded
  split
  · refine .bind (LogsFrom.attempt (.ask trivial)) fun decision => ?_
    split
    · exact .bind (.ask (.of_rejection (by decide) (by decide) (by decide))) fun _ => .pure _
    · exact .raise _
    · split
      · exact .pure none
      · exact .bind (.ask (.of_rejection (by decide) (by decide) (by decide))) fun _ => .pure _
  · exact .pure none

theorem logs_processCallback (payload : PyDict) : Logs (processCallback py payload) := by
  refine .bind (LogsFrom.attempt (StkCallbackHandler.logs_process py payload)) fun result => ?_
  split
  · exact .pure _
  · exact .bind (.ask (.of_rejection (by decide) (by decide) (by decide))) fun _ => .pure _
  · exact .raise _

/-- The checks of the route write no transaction, and what they log is aside. -/
theorem logs_post (request : CallbackRequest) : Logs (self.post py request) := by
  refine .bind (self.logs_validateCallbackSecret _) fun response => ?_
  cases response with
  | some response => exact .pure _
  | none =>
    refine .bind (self.logs_rejectUntrusted _) fun response => ?_
    cases response with
    | some response => exact .pure _
    | none =>
      refine .bind (self.logs_rejectDuplicate py _) fun response => ?_
      cases response with
      | some response => exact .pure _
      | none => exact logs_processCallback py _

end CallbackRoute

/-- Every audited operation leaves nothing unlogged. -/
theorem logs_program {τ π : Type} (container : AppContainer τ π) (py : Runtime) {op : Op}
    (audited : op.Audited) : Logs (program container py op) := by
  cases op with
  | initiateStkPush args => exact (logs_initiateStkPush py _ args).map _
  | executeApprovedPayment approvalId operatorId => exact (logs_executeApprovedPayment _ _).map _
  | approveRequest approvalId operatorId => exact (ApprovalService.logs_approveRequest _ _).map _
  | rejectRequest approvalId => exact (ApprovalService.logs_rejectRequest _).map _
  | expireStaleApprovals => exact ApprovalService.logs_expireStaleApprovals.map _
  | listPendingRequests => exact ApprovalService.logs_listPendingRequests.map _
  | process payload => exact (StkCallbackHandler.logs_process py payload).map _
  | postCallback request => exact (container.callbackRoute.logs_post py request).map _
  | _ => exact absurd audited id

end MpesaMcp
