import MpesaMcp.Laws.AuditProtocol
import MpesaMcp.Laws.TransactionLifecycle

/-!
# What the log tells

`TrailAt` says what the log of an in-memory container tells of its stores while a service still owes an
event. Each message that the audit protocol allows keeps it (`TrailAt.step`); so after every operation,
with nothing owed, the log determines the state (`log_determines_state`).
-/

set_option autoImplicit false

namespace MpesaMcp

open Library Python PaymentService

/-! ## The log and what is stored -/

theorem filter_snoc {α : Type} (p : α → Bool) (xs : List α) (x : α) :
    (xs ++ [x]).filter p = if p x = true then xs.filter p ++ [x] else xs.filter p := by
  rw [List.filter_append]
  by_cases h : p x = true
  · rw [if_pos h, List.filter_cons_of_pos h, List.filter_nil]
  · rw [if_neg h, List.filter_cons_of_neg h, List.filter_nil, List.append_nil]

section Events

variable {events : List AuditEvent} {e : AuditEvent}

/-- An event about a push is the last of those about pushes. -/
theorem pushEvents_snoc (h : e.eventType = "stk_push_initiated") :
    pushEvents (events ++ [e]) = pushEvents events ++ [e] := by
  rw [pushEvents, filter_snoc, if_pos (decide_eq_true h), pushEvents]

theorem pushEvents_snoc_of_ne (h : e.eventType ≠ "stk_push_initiated") :
    pushEvents (events ++ [e]) = pushEvents events := by
  rw [pushEvents, filter_snoc, if_neg (fun hd => h (of_decide_eq_true hd)), pushEvents]

/-- An event that carries a transaction as processed is the last of those about it. -/
theorem processedEvents_snoc {transactionId : String} (h : e.eventType = "stk_callback_processed")
    (carries : lookup e.payload "transaction_id" = .str transactionId) :
    processedEvents transactionId (events ++ [e]) = processedEvents transactionId events ++ [e] := by
  rw [processedEvents, filter_snoc, if_pos (decide_eq_true ⟨h, by rw [carries]; rfl⟩), processedEvents]

theorem processedEvents_snoc_of_not {transactionId : String}
    (h : ¬ (e.eventType = "stk_callback_processed" ∧
      (lookup e.payload "transaction_id").asStr? = some transactionId)) :
    processedEvents transactionId (events ++ [e]) = processedEvents transactionId events := by
  rw [processedEvents, filter_snoc, if_neg (fun hd => h (of_decide_eq_true hd)), processedEvents]

/-- An event that carries an approval is the last of those about it. -/
theorem approvalEvents_snoc {approvalId : String} (h : "approval_".toList <+: e.eventType.toList)
    (carries : lookup e.payload "approval_id" = .str approvalId) :
    approvalEvents approvalId (events ++ [e]) = approvalEvents approvalId events ++ [e] := by
  rw [approvalEvents, filter_snoc, if_pos (decide_eq_true ⟨h, by rw [carries]; rfl⟩), approvalEvents]

theorem approvalEvents_snoc_of_not {approvalId : String}
    (h : ¬ ("approval_".toList <+: e.eventType.toList ∧
      (lookup e.payload "approval_id").asStr? = some approvalId)) :
    approvalEvents approvalId (events ++ [e]) = approvalEvents approvalId events := by
  rw [approvalEvents, filter_snoc, if_neg (fun hd => h (of_decide_eq_true hd)), approvalEvents]

/-- Only an event about a processed callback settles a transaction. -/
theorem SettledBy.snoc {t : PendingTransaction} (h : SettledBy t events)
    (other : e.eventType ≠ "stk_callback_processed") : SettledBy t (events ++ [e]) :=
  h.congr (processedEvents_snoc_of_not fun hcarries => other hcarries.1)

/-- Only an event about an approval names its status. -/
theorem ReviewedBy.snoc {a : ApprovalRequest} (h : ReviewedBy a events)
    (other : ¬ "approval_".toList <+: e.eventType.toList) : ReviewedBy a (events ++ [e]) := by
  rw [ReviewedBy, approvalEvents_snoc_of_not fun hnamed => other hnamed.1]
  exact h

/-- An event that names a status is about an approval and nothing else. -/
theorem eventTypes_approval {status : ApprovalStatus} {eventType : String}
    (h : eventType ∈ status.eventTypes) :
    "approval_".toList <+: eventType.toList ∧ eventType ≠ "stk_push_initiated" ∧
      eventType ≠ "stk_callback_processed" := by
  have hall : ∀ status : ApprovalStatus, ∀ eventType ∈ status.eventTypes,
      "approval_".toList <+: eventType.toList ∧ eventType ≠ "stk_push_initiated" ∧
        eventType ≠ "stk_callback_processed" := by
    intro status
    cases status <;> decide
  exact hall status eventType h

end Events

section Trail

variable {π : Type} {env : Env} {settings : Settings} {verifier : CallbackSourceVerifier}
  {provider : PaymentProvider π} {w w' : World Transactions π}

/-- The pushes and their events, where the last push may be unannounced or uncounted. -/
def PushTrail (stage : AuditStage) (w : World Transactions π) : Prop :=
  match stage with
  | .stored t => ∃ older, w.transactions.values = older ++ [t] ∧
      List.Forall₂ Announces older (pushEvents w.auditEvents) ∧
      w.metrics.successfulPaymentCount = older.length
  | .announced => List.Forall₂ Announces w.transactions.values (pushEvents w.auditEvents) ∧
      w.metrics.successfulPaymentCount + 1 = w.transactions.values.length
  | _ => List.Forall₂ Announces w.transactions.values (pushEvents w.auditEvents) ∧
      w.metrics.successfulPaymentCount = w.transactions.values.length

/-- What the log tells while this is owed. -/
structure TrailAt (env : Env) (stage : AuditStage) (w : World Transactions π) : Prop where
  issued : RowsIssued env w.ambient w.transactions
  pushes : PushTrail stage w
  known : ∀ e ∈ w.auditEvents, e.eventType = "stk_callback_processed" → ∀ transactionId,
    (lookup e.payload "transaction_id").asStr? = some transactionId →
      ∃ t ∈ w.transactions.values, t.transactionId = transactionId
  updated : ∀ t, stage = .settled t → t ∈ w.transactions.values ∧ t.status.Terminal ∧
    processedEvents t.transactionId w.auditEvents = []
  settled : ∀ t ∈ w.transactions.values, stage ≠ .settled t → SettledBy t w.auditEvents
  written : ∀ a, stage = .reviewed a → a ∈ w.approvals.values
  reviewed : ∀ a ∈ w.approvals.values, stage ≠ .reviewed a → ReviewedBy a w.auditEvents

namespace TrailAt

/-- Nothing that the log tells of has changed. -/
theorem congr {stage : AuditStage} (h : TrailAt env stage w) (forward : w.ambient.Forward w'.ambient)
    (transactions : w'.transactions = w.transactions) (approvals : w'.approvals = w.approvals)
    (events : w'.auditEvents = w.auditEvents)
    (count : w'.metrics.successfulPaymentCount = w.metrics.successfulPaymentCount) :
    TrailAt env stage w' := by
  refine ⟨?_, ?_, ?_, ?_, ?_, ?_, ?_⟩
  · rw [transactions]
    exact h.issued.forward forward
  · have hpushes := h.pushes
    cases stage <;> simpa only [PushTrail, transactions, events, count] using hpushes
  · rw [events, transactions]
    exact h.known
  · rw [transactions, events]
    exact h.updated
  · rw [transactions, events]
    exact h.settled
  · rw [approvals]
    exact h.written
  · rw [approvals, events]
    exact h.reviewed

/-- An event about no transaction, or about a stored one. -/
theorem known_snoc {stage : AuditStage} (h : TrailAt env stage w) {e : AuditEvent}
    (about : e.eventType = "stk_callback_processed" → ∀ transactionId,
      (lookup e.payload "transaction_id").asStr? = some transactionId →
        ∃ t ∈ w.transactions.values, t.transactionId = transactionId) :
    ∀ e' ∈ w.auditEvents ++ [e], e'.eventType = "stk_callback_processed" → ∀ transactionId,
      (lookup e'.payload "transaction_id").asStr? = some transactionId →
        ∃ t ∈ w.transactions.values, t.transactionId = transactionId := by
  intro e' he'
  rcases List.mem_append.mp he' with he' | he'
  · exact h.known e' he'
  · cases List.mem_singleton.mp he'
    exact about

/-- An event that is about nothing of this. -/
theorem aside (h : TrailAt env .quiet w) {e : AuditEvent} (he : e.Aside) :
    TrailAt env .quiet { w with auditEvents := w.auditEvents ++ [e] } := by
  have hcarries : ∀ transactionId, ¬ (e.eventType = "stk_callback_processed" ∧
      (lookup e.payload "transaction_id").asStr? = some transactionId) := by
    rintro transactionId ⟨htype, hid⟩
    rw [he.noTransaction htype] at hid
    cases hid
  refine ⟨h.issued, ?_, h.known_snoc fun htype transactionId hid => ?_, fun _ hstage => ?_,
    fun t ht hstage => ?_, fun _ hstage => ?_, fun a ha hstage => ?_⟩
  · obtain ⟨hpushes, hcount⟩ := h.pushes
    refine ⟨?_, hcount⟩
    rw [pushEvents_snoc_of_ne he.noPush]
    exact hpushes
  · exact absurd ⟨htype, hid⟩ (hcarries transactionId)
  · cases hstage
  · exact (h.settled t ht nofun).congr (processedEvents_snoc_of_not (hcarries _))
  · cases hstage
  · exact (h.reviewed a ha nofun).snoc he.noApproval

/-- A push is stored under an id that is drawn by then. -/
theorem save (h : TrailAt env .quiet w) (args : SavePendingTransaction) {k : Nat}
    (drawn : w.ambient.uuidDraws ≤ k ∧ k < w'.ambient.uuidDraws) (createdAt updatedAt : Datetime)
    (transactions : w'.transactions =
      w.transactions.put (args.record (env.uuid4 k) createdAt updatedAt))
    (approvals : w'.approvals = w.approvals) (events : w'.auditEvents = w.auditEvents)
    (metrics : w'.metrics = w.metrics) :
    TrailAt env (.stored (args.record (env.uuid4 k) createdAt updatedAt)) w' := by
  have hfresh : w.transactions.get (env.uuid4 k) = none := h.issued.fresh drawn.1
  have hvalues : w'.transactions.values =
      w.transactions.values ++ [args.record (env.uuid4 k) createdAt updatedAt] := by
    rw [transactions]
    exact Keyed.put_values_of_none hfresh
  refine ⟨?_, ?_, fun e he htype transactionId hid => ?_, fun _ hstage => ?_, fun t ht hstage => ?_,
    fun _ hstage => ?_, fun a ha hstage => ?_⟩
  · rw [transactions]
    exact h.issued.put drawn args createdAt updatedAt
  · refine ⟨w.transactions.values, hvalues, ?_⟩
    rw [events, metrics]
    exact h.pushes
  · rw [events] at he
    obtain ⟨t, ht, hsame⟩ := h.known e he htype transactionId hid
    exact ⟨t, hvalues ▸ List.mem_append_left _ ht, hsame⟩
  · cases hstage
  · rw [events]
    rw [hvalues] at ht
    rcases List.mem_append.mp ht with ht | ht
    · exact h.settled t ht nofun
    · cases List.mem_singleton.mp ht
      -- no event carries an id that was not drawn
      have hnone : processedEvents (env.uuid4 k) w.auditEvents = [] := by
        refine List.filter_eq_nil_iff.mpr fun e he hcarries => ?_
        obtain ⟨htype, hid⟩ := of_decide_eq_true hcarries
        obtain ⟨t, ht, hsame⟩ := h.known e he htype _ hid
        exact Keyed.get_eq_none_iff.mp hfresh t ht hsame
      exact ⟨fun _ => hnone, fun hsettled => absurd rfl hsettled⟩
  · cases hstage
  · rw [approvals] at ha
    rw [events]
    exact h.reviewed a ha nofun

/-- The event about the stored push. -/
theorem announce {t : PendingTransaction} (h : TrailAt env (.stored t) w) {e : AuditEvent}
    (push : e.eventType = "stk_push_initiated") (announces : Announces t e) :
    TrailAt env .announced { w with auditEvents := w.auditEvents ++ [e] } := by
  have hother : e.eventType ≠ "stk_callback_processed" := by
    rw [push]
    decide
  have hnoApproval : ¬ "approval_".toList <+: e.eventType.toList := by
    rw [push]
    decide
  refine ⟨h.issued, ?_, h.known_snoc fun htype => absurd htype hother, fun _ hstage => ?_,
    fun u hu hstage => ?_, fun _ hstage => ?_, fun a ha hstage => ?_⟩
  · obtain ⟨older, hvalues, hpushes, hcount⟩ := h.pushes
    constructor
    · rw [hvalues, pushEvents_snoc push]
      exact List.rel_append hpushes (.cons announces .nil)
    · rw [hvalues, List.length_append, hcount]
      rfl
  · cases hstage
  · exact (h.settled u hu nofun).snoc hother
  · cases hstage
  · exact (h.reviewed a ha nofun).snoc hnoApproval

/-- The counter behind the event. -/
theorem count (h : TrailAt env .announced w) :
    TrailAt env .quiet { w with metrics := w.metrics.increment .successfulPayment } := by
  refine ⟨h.issued, ⟨h.pushes.1, h.pushes.2⟩, h.known, fun _ hstage => ?_, fun t ht hstage => ?_,
    fun _ hstage => ?_, fun a ha hstage => ?_⟩
  · cases hstage
  · exact h.settled t ht nofun
  · cases hstage
  · exact h.reviewed a ha nofun

/-- A callback settles a pending transaction. -/
theorem update (h : TrailAt env .quiet w) {t : PendingTransaction}
    (stored : w.transactions.get t.transactionId = some t) (pending : t.status = .pending)
    (args : UpdateTransactionStatus) {status : TransactionStatus} (terminal : status.Terminal)
    (now : Datetime) (forward : w.ambient.Forward w'.ambient)
    (transactions : w'.transactions = w.transactions.put (args.apply t status now))
    (approvals : w'.approvals = w.approvals) (events : w'.auditEvents = w.auditEvents)
    (metrics : w'.metrics = w.metrics) : TrailAt env (.settled (args.apply t status now)) w' := by
  have hpaired : w.transactions.Paired SameIdentity w'.transactions := by
    rw [transactions]
    exact Keyed.paired_put_of_some SameIdentity.refl stored (SameIdentity.apply args t status now)
  have hmem : args.apply t status now ∈ w'.transactions.values := by
    rw [transactions]
    exact Keyed.mem_values_put.mpr (Or.inl rfl)
  refine ⟨(h.issued.forward forward).paired (fun _ _ hsame => hsame.transactionId) hpaired, ⟨?_, ?_⟩,
    fun e he htype transactionId hid => ?_, fun u hstage => ?_, fun u hu hstage => ?_,
    fun _ hstage => ?_, fun a ha hstage => ?_⟩
  · rw [events]
    exact forall₂_over (fun _ _ _ hsame hannounces => hannounces.of_same hsame) hpaired h.pushes.1
  · rw [metrics, h.pushes.2]
    exact List.Forall₂.length_eq hpaired
  · rw [events] at he
    obtain ⟨u, hu, hsame⟩ := h.known e he htype transactionId hid
    obtain ⟨v, hv, huv⟩ := (forall₂_mem hpaired).1 u hu
    exact ⟨v, hv, huv.transactionId.trans hsame⟩
  · cases hstage
    refine ⟨hmem, terminal, ?_⟩
    rw [events]
    exact (h.settled t (Keyed.mem_of_get stored) nofun).pending pending
  · rw [events]
    rw [transactions] at hu
    rcases Keyed.mem_values_put.mp hu with rfl | ⟨hu, -⟩
    · exact absurd rfl hstage
    · exact h.settled u hu nofun
  · cases hstage
  · rw [approvals] at ha
    rw [events]
    exact h.reviewed a ha nofun

/-- The event about the settled transaction. -/
theorem settle {t : PendingTransaction} (h : TrailAt env (.settled t) w) {e : AuditEvent}
    (processed : e.eventType = "stk_callback_processed")
    (carries : lookup e.payload "transaction_id" = .str t.transactionId) (settles : Settles t e) :
    TrailAt env .quiet { w with auditEvents := w.auditEvents ++ [e] } := by
  obtain ⟨hmem, hterminal, hnone⟩ := h.updated t rfl
  have hnoPush : e.eventType ≠ "stk_push_initiated" := by
    rw [processed]
    decide
  have hnoApproval : ¬ "approval_".toList <+: e.eventType.toList := by
    rw [processed]
    decide
  refine ⟨h.issued, ⟨?_, h.pushes.2⟩, h.known_snoc fun _ transactionId hid => ?_, fun _ hstage => ?_,
    fun u hu hstage => ?_, fun _ hstage => ?_, fun a ha hstage => ?_⟩
  · rw [pushEvents_snoc_of_ne hnoPush]
    exact h.pushes.1
  · rw [carries] at hid
    exact ⟨t, hmem, Option.some.inj hid⟩
  · cases hstage
  · by_cases hut : u.transactionId = t.transactionId
    · cases w.transactions.eq_of_key_eq hu hmem hut
      refine ⟨fun hpending => absurd hpending hterminal, fun _ => ⟨e, ?_, settles⟩⟩
      rw [processedEvents_snoc processed carries, hnone]
      rfl
    · refine (h.settled u hu fun hsame => ?_).congr (processedEvents_snoc_of_not fun hcarries => ?_)
      · cases hsame
        exact hut rfl
      · rw [carries] at hcarries
        exact hut (Option.some.inj hcarries.2).symm
  · cases hstage
  · exact (h.reviewed a ha nofun).snoc hnoApproval

/-- An approval is written. -/
theorem write (h : TrailAt env .quiet w) {a : ApprovalRequest}
    (forward : w.ambient.Forward w'.ambient) (approvals : w'.approvals = w.approvals.put a)
    (transactions : w'.transactions = w.transactions) (events : w'.auditEvents = w.auditEvents)
    (metrics : w'.metrics = w.metrics) : TrailAt env (.reviewed a) w' := by
  refine ⟨?_, ⟨?_, ?_⟩, ?_, fun _ hstage => ?_, fun t ht hstage => ?_, fun b hstage => ?_,
    fun b hb hstage => ?_⟩
  · rw [transactions]
    exact h.issued.forward forward
  · rw [transactions, events]
    exact h.pushes.1
  · rw [transactions, metrics]
    exact h.pushes.2
  · rw [events, transactions]
    exact h.known
  · cases hstage
  · rw [transactions] at ht
    rw [events]
    exact h.settled t ht nofun
  · cases hstage
    rw [approvals]
    exact Keyed.mem_values_put.mpr (Or.inl rfl)
  · rw [approvals] at hb
    rw [events]
    rcases Keyed.mem_values_put.mp hb with rfl | ⟨hb, -⟩
    · exact absurd rfl hstage
    · exact h.reviewed b hb nofun

/-- The event about the approval. -/
theorem name {a : ApprovalRequest} (h : TrailAt env (.reviewed a) w) {e : AuditEvent}
    (carries : lookup e.payload "approval_id" = .str a.approvalId) (names : NamesStatus a e) :
    TrailAt env .quiet { w with auditEvents := w.auditEvents ++ [e] } := by
  have hmem := h.written a rfl
  obtain ⟨happroval, hnoPush, hother⟩ := eventTypes_approval names.eventType
  refine ⟨h.issued, ⟨?_, h.pushes.2⟩, h.known_snoc fun htype => absurd htype hother,
    fun _ hstage => ?_, fun t ht hstage => ?_, fun _ hstage => ?_, fun b hb hstage => ?_⟩
  · rw [pushEvents_snoc_of_ne hnoPush]
    exact h.pushes.1
  · cases hstage
  · exact (h.settled t ht nofun).snoc hother
  · cases hstage
  · by_cases hba : b.approvalId = a.approvalId
    · cases w.approvals.eq_of_key_eq hb hmem hba
      refine ⟨e, ?_, names⟩
      rw [approvalEvents_snoc happroval carries]
      exact List.getLast?_concat
    · rw [ReviewedBy, approvalEvents_snoc_of_not]
      · refine h.reviewed b hb fun hsame => ?_
        cases hsame
        exact hba rfl
      · rintro ⟨-, hnamed⟩
        rw [carries] at hnamed
        exact hba (Option.some.inj hnamed).symm

/-- A call of the transaction repository with nothing owed. A save or an applied update leaves its
event owed, and the invariant says for which transaction; everything else leaves nothing owed. -/
theorem step_transactions (h : TrailAt env .quiet w) (m : TransactionRepositoryProtocol) :
    let r := handle env (.inMemory settings verifier provider) (.transactions m) w
    ∃ stage', auditMoves .quiet (.transactions m) r.1 stage' ∧ TrailAt env stage' r.2 := by
  intro r
  have hforward : w.ambient.Forward r.2.ambient := handle_forward env _ (.transactions m) w
  cases m with
  | savePendingTransaction args =>
    refine ⟨_, ⟨_, _, _, rfl, rfl⟩, ?_⟩
    exact h.save args ⟨Nat.le_refl _, Nat.lt_succ_self _⟩ _ _ rfl rfl rfl rfl
  | updateTransactionStatus args =>
    rcases memory_update env (w.ambient, w.transactions) args with
      ⟨-, hr⟩ | ⟨t, e, -, -, hr⟩ | ⟨t, status, hfound, hvalid, hr⟩
    · refine ⟨.quiet, Or.inl ⟨rfl, fun t ht => ?_⟩,
        h.congr hforward (congrArg (fun r => r.2.2) hr) rfl rfl rfl⟩
      cases (congrArg Prod.fst hr).symm.trans ht
    · refine ⟨.quiet, Or.inl ⟨rfl, fun t ht => ?_⟩,
        h.congr hforward (congrArg (fun r => r.2.2) hr) rfl rfl rfl⟩
      cases (congrArg Prod.fst hr).symm.trans ht
    · obtain ⟨hpending, hterminal, htext⟩ := validateTransition_ok_iff.mp hvalid
      refine ⟨_, Or.inr ⟨_, congrArg Prod.fst hr, rfl, htext.symm, rfl, rfl⟩, ?_⟩
      exact h.update (get_of_firstMatch hfound).1 hpending args hterminal _ hforward
        (congrArg (fun r => r.2.2) hr) rfl rfl rfl
  | _ => exact ⟨.quiet, rfl, h.congr hforward rfl rfl rfl rfl⟩

/-- A call of the approval repository with nothing owed. A write leaves the event about this approval
owed, and the events about the others still name their statuses. -/
theorem step_approvals (h : TrailAt env .quiet w) (m : ApprovalRepositoryProtocol) :
    let r := handle env (.inMemory settings verifier provider) (.approvals m) w
    ∃ stage', auditMoves .quiet (.approvals m) r.1 stage' ∧ TrailAt env stage' r.2 := by
  intro r
  have hforward : w.ambient.Forward r.2.ambient := handle_forward env _ (.approvals m) w
  cases m with
  | create args => exact ⟨_, ⟨_, rfl, rfl, rfl⟩, h.write hforward rfl rfl rfl rfl⟩
  | get approvalId =>
    refine ⟨.quiet, ⟨rfl, _, rfl, fun a ha => Keyed.key_of_get ha⟩, ?_⟩
    exact h.congr hforward rfl rfl rfl rfl
  | listPending => exact ⟨.quiet, rfl, h.congr hforward rfl rfl rfl rfl⟩
  | updateStatus approvalId status =>
    cases hget : w.approvals.get approvalId with
    | none =>
      have hr := handle_updateStatus_of_none env (.inMemory settings verifier provider) hget status
      exact ⟨.quiet, Or.inl ⟨rfl, congrArg Prod.fst hr⟩, (congrArg Prod.snd hr).symm ▸ h⟩
    | some a =>
      have hr := handle_updateStatus env (.inMemory settings verifier provider) hget status
      refine ⟨_, Or.inr ⟨_, congrArg Prod.fst hr, ?_, ApprovalRequest.status_withStatus _ _ _, rfl⟩,
        h.write hforward (congrArg (fun r => r.2.approvals) hr) rfl rfl rfl⟩
      exact (ApprovalRequest.approvalId_withStatus _ _ _).trans (Keyed.key_of_get hget)
  | save approval => exact ⟨_, ⟨rfl, rfl⟩, h.write hforward rfl rfl rfl rfl⟩

/-- **One message**: whatever the protocol allows, the in-memory stores answer it as the protocol says,
and the log goes on telling what is stored. -/
theorem step {stage : AuditStage} {m : Msg} (h : TrailAt env stage w) (allowed : auditAllows stage m) :
    let r := handle env (.inMemory settings verifier provider) m w
    ∃ stage', auditMoves stage m r.1 stage' ∧ TrailAt env stage' r.2 := by
  intro r
  have hforward : w.ambient.Forward r.2.ambient := handle_forward env _ m w
  cases stage with
  | quiet =>
    cases m with
    | logEvent e => exact ⟨.quiet, rfl, h.aside allowed⟩
    | increment counter =>
      refine ⟨.quiet, rfl, h.congr hforward rfl rfl rfl ?_⟩
      cases counter with
      | successfulPayment => exact absurd rfl allowed
      | _ => rfl
    | transactions m => exact h.step_transactions m
    | approvals m => exact h.step_approvals m
    | provider m => cases m <;> exact ⟨.quiet, rfl, h.congr hforward rfl rfl rfl rfl⟩
    | _ => exact ⟨.quiet, rfl, h.congr hforward rfl rfl rfl rfl⟩
  | stored t =>
    cases m with
    | logEvent e => exact ⟨.announced, ⟨rfl, rfl⟩, h.announce allowed.1 allowed.2⟩
    | _ => exact absurd allowed id
  | announced =>
    cases m with
    | increment counter =>
      cases allowed
      exact ⟨.quiet, rfl, h.count⟩
    | _ => exact absurd allowed id
  | settled t =>
    cases m with
    | logEvent e => exact ⟨.quiet, rfl, h.settle allowed.1 allowed.2.1 allowed.2.2⟩
    | _ => exact absurd allowed id
  | reviewed a =>
    cases m with
    | logEvent e => exact ⟨.quiet, rfl, h.name allowed.1 allowed.2⟩
    | _ => exact absurd allowed id

end TrailAt

end Trail

/-! ## The theorem -/

section Theorem

variable {π : Type} {env : Env} {settings : Settings} {verifier : CallbackSourceVerifier}
  {provider : PaymentProvider π}

/-- An audited operation begins and ends with nothing owed. -/
theorem TrailAt.op {w : World Transactions π} (h : TrailAt env .quiet w) {op : Op}
    (audited : op.Audited) :
    TrailAt env .quiet (MpesaMcp.step env (.inMemory settings verifier provider) op w).2 := by
  obtain ⟨stage, hends, hreturns, hraises⟩ := Prog.Follows.run (I := TrailAt env)
    (fun _ _ _ allowed h => TrailAt.step h allowed)
    (logs_program (.inMemory settings verifier provider) env.toRuntime audited) h
  have hquiet : stage = .quiet := by
    cases houtput : (Prog.run (handle env (.inMemory settings verifier provider))
        (program (.inMemory settings verifier provider) env.toRuntime op) w).1 with
    | ok reply => exact hreturns reply houtput
    | error e => exact hraises e houtput
  subst hquiet
  exact hends

/-- Where nothing is owed, the log determines the state. -/
theorem TrailAt.audited {w : World Transactions π} (h : TrailAt env .quiet w) : Audited w where
  pushes := h.pushes.1
  distinct := w.transactions.nodup
  counted := h.pushes.2
  settled t ht := h.settled t ht nofun
  reviewed a ha := h.reviewed a ha nofun

/-- **The log determines the state**: after every run of audited operations of an in-memory container,
whatever the provider does. Each service follows the protocol of the log, and a run that follows it
keeps the trail, which at rest is what the property says. -/
theorem log_determines_state (env : Env) (settings : Settings) (verifier : CallbackSourceVerifier)
    (provider : PaymentProvider π) (state : π) (ops : List Op) (audited : ∀ op ∈ ops, op.Audited) :
    Audited (final (MpesaMcp.step env (.inMemory settings verifier provider))
      (start Keyed.empty state) ops) := by
  have hstart : TrailAt env .quiet (start Keyed.empty state : World Transactions π) := by
    refine ⟨?_, ⟨.nil, rfl⟩, ?_, ?_, ?_, ?_, ?_⟩
    · exact fun t ht => absurd ht List.not_mem_nil
    · exact fun e he => absurd he List.not_mem_nil
    · exact fun t hstage => by cases hstage
    · exact fun t ht => absurd ht List.not_mem_nil
    · exact fun a hstage => by cases hstage
    · exact fun a ha => absurd ha List.not_mem_nil
  refine TrailAt.audited (invariant_of (C := fun st => st.input.Audited)
    (I := fun _ w => TrailAt env .quiet w) hstart (fun _ w op haudited h => h.op haudited) ops
    fun st hst => ?_)
  obtain ⟨before, op, after, rfl, rfl⟩ := mem_trace_split hst
  exact audited op (List.mem_append_right _ List.mem_cons_self)

end Theorem

/-- A payment of 20000 shillings that is requested, approved and then cancelled by its customer, which
the callback reports as a failure. -/
def approvedThenCancelled : List Op := [
  .initiateStkPush ⟨some "254700000000", some 20000, "order", "goods", some "key"⟩,
  .executeApprovedPayment "1" "alice",
  .process [("Body", .dict [("stkCallback", .dict [("CheckoutRequestID", .str "ws_CO_11"),
    ("ResultCode", .int 1032), ("ResultDesc", .str "Request cancelled by user.")])])]]

/-- A run whose log has an event for the approval asked for, its decision, the push stored and the
callback that moves it. -/
theorem log_determines_state_cancelled :
    Audited (final (step .still (.inMemory {} .development MockDarajaPaymentProvider))
      (start Keyed.empty ()) approvedThenCancelled) := by
  refine log_determines_state .still {} .development MockDarajaPaymentProvider ()
    approvedThenCancelled ?_
  intro op hop
  rcases List.mem_cons.mp hop with rfl | hop
  · trivial
  · rcases List.mem_cons.mp hop with rfl | hop
    · trivial
    · cases List.mem_singleton.mp hop
      trivial

end MpesaMcp
