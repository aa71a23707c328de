import MpesaMcp.Laws.RejectedCallbacks
import MpesaMcp.Laws.SeparationOfDuties
import MpesaMcp.Laws.TransactionSteps

/-!
# Who is behind a change

The stores of the server change in the steps of few: of a tool that pays or decides, of an operator who
is logged in as an approver at least, and, for transactions, of a callback with the right secret and
source (`changes_attributed`). Viewers change nothing, nor does a request that is refused.
-/

set_option autoImplicit false

namespace MpesaMcp

open Library Python

variable {τ π ρ : Type}

/-! ## Operations that write -/

namespace Op

/-- The operations that write approval requests; a list of pending requests expires the stale ones. -/
def Decides : Op → Prop
  | initiateStkPush _ => True
  | executeApprovedPayment _ _ => True
  | approveRequest _ _ => True
  | rejectRequest _ => True
  | expireStaleApprovals => True
  | listPendingRequests => True
  | _ => False

/-- The operations that call the provider for a payment. -/
def Pays : Op → Prop
  | initiateStkPush _ => True
  | executeApprovedPayment _ _ => True
  | _ => False

/-- The operations that write transactions. -/
def Records (route : CallbackRoute) : Op → Prop
  | initiateStkPush _ => True
  | executeApprovedPayment _ _ => True
  | savePendingTransaction _ => True
  | updateTransactionStatus _ => True
  | process _ => True
  | postCallback request => route.Authenticated request
  | _ => False

/-- The operations that read. -/
def Reads : Op → Prop
  | generateReceipt _ => True
  | generateReceiptByReference _ => True
  | getTodaySummary => True
  | getFailedTransactions => True
  | runReconciliation => True
  | _ => False

end Op

/-- A repository leaves its store alone where it only reads. -/
def TransactionRepository.ReadsAlone (repository : TransactionRepository τ) : Prop :=
  ∀ (env : Env) (m : TransactionRepositoryProtocol) (s : Ambient × τ),
    (Msg.transactions m).SparesTransactions → (repository.answer env m s).2.2 = s.2

/-- Lookups in memory return what is stored and store nothing. -/
theorem InMemoryTransactionRepository.readsAlone : InMemoryTransactionRepository.ReadsAlone := by
  intro env m s h
  cases m <;> first | rfl | exact absurd h id

/-- A SELECT leaves the table alone, whether it is answered or fails. -/
theorem PostgresTransactionRepository.readsAlone : PostgresTransactionRepository.ReadsAlone := by
  intro env m s h
  -- one statement, which selects
  have selects : ∀ (c : DatabaseCall), (∀ a env, (s.2.execute c a env).2.2 = s.2) →
      (Prog.run (TransactionTable.answer env)
        ((PostgresTransactionRepository.query c).translate PostgresTransactionRepository.unavailable)
          s).2.2 = s.2 := by
    intro c hc
    rw [PostgresTransactionRepository.query, Prog.run_translate, Prog.run_send]
    show (TransactionTable.answer env c s).2.2 = s.2
    simp only [TransactionTable.answer]
    split_ifs
    · rfl
    · exact hc _ _
    · exact hc _ _
  cases m with
  | savePendingTransaction args => exact absurd h id
  | updateTransactionStatus args => exact absurd h id
  | getTransaction transactionId => exact selects _ fun _ _ => rfl
  | findByCheckoutRequestId checkoutRequestId => exact selects _ fun _ _ => rfl
  | findByIdempotencyKey idempotencyKey => exact selects _ fun _ _ => rfl
  | listTransactions => exact selects _ fun _ _ => rfl
  | listRecentTransactions limit =>
    refine selects _ fun a env => ?_
    simp only [TransactionTable.execute]
    split_ifs <;> rfl
  | listTransactionsByStatus status => exact selects _ fun _ _ => rfl
  | listTransactionsForDate targetDate => exact selects _ fun _ _ => rfl

/-- What only reads changes no transaction. -/
theorem Msg.ReadsOnly.sparesTransactions {m : Msg} (h : m.ReadsOnly) : m.SparesTransactions := by
  unfold Msg.ReadsOnly at h
  split at h
  next => trivial
  next => trivial
  next => trivial
  next => exact h.sparesTransactions

section Programs

variable (container : AppContainer τ π) (py : Runtime)

/-- The operations that only read keep to the vocabulary of reading. -/
theorem sends_of_reads {op : Op} (h : op.Reads) : (program container py op).Sends Msg.OfReading := by
  cases op with
  | generateReceipt checkoutRequestId =>
    exact .map (ReceiptService.sends_generateReceipt checkoutRequestId) _
  | generateReceiptByReference reference =>
    exact .map (ReceiptService.sends_generateReceiptByReference reference) _
  | getTodaySummary => exact .map AnalyticsService.sends_getTodaySummary _
  | getFailedTransactions => exact .map AnalyticsService.sends_getFailedTransactions _
  | runReconciliation => exact .map container.reconciliationService.sends_runReconciliation _
  | _ => exact absurd h id

/-- An operation that decides nothing has no message for the approvals. -/
theorem sends_sparesApprovals {op : Op} (h : ¬ op.Decides) :
    (program container py op).Sends Msg.SparesApprovals := by
  have reading : ∀ {op : Op}, op.Reads → (program container py op).Sends Msg.SparesApprovals :=
    fun hreads => (sends_of_reads container py hreads).mono fun _ => Msg.OfReading.sparesApprovals
  cases op with
  | savePendingTransaction args => exact .map ((sends_ask _).mpr trivial) _
  | updateTransactionStatus args => exact .map ((sends_ask _).mpr trivial) _
  | process payload =>
    refine .map ((StkCallbackHandler.sends_process py payload).mono fun m hm => ?_) _
    exact hm.ofCallback.sparesApprovals
  | postCallback request =>
    refine .map ((CallbackRoute.sends_post py _ request).mono fun m hm => ?_) _
    exact hm.sparesApprovals
  | _ =>
    first
    | exact absurd trivial h
    | exact reading trivial

/-- An operation that pays nothing has no message for the provider. -/
theorem sends_sparesProvider {op : Op} (h : ¬ op.Pays) :
    (program container py op).Sends Msg.SparesProvider := by
  have reading : ∀ {op : Op}, op.Reads → (program container py op).Sends Msg.SparesProvider :=
    fun hreads => (sends_of_reads container py hreads).mono fun _ => Msg.OfReading.sparesProvider
  have reviewing : ∀ {α : Type} {p : App α} {reply : α → Reply}, p.Sends Msg.OfApprovals →
      (reply <$> p).Sends Msg.SparesProvider :=
    fun hp => .map (hp.mono fun _ => Msg.OfApprovals.sparesProvider) _
  cases op with
  | savePendingTransaction args => exact .map ((sends_ask _).mpr trivial) _
  | updateTransactionStatus args => exact .map ((sends_ask _).mpr trivial) _
  | process payload =>
    refine .map ((StkCallbackHandler.sends_process py payload).mono fun m hm => ?_) _
    exact hm.ofCallback.sparesProvider
  | postCallback request =>
    refine .map ((CallbackRoute.sends_post py _ request).mono fun m hm => ?_) _
    exact hm.sparesProvider
  | approveRequest approvalId operatorId =>
    exact reviewing (ApprovalService.sends_approveRequest approvalId operatorId)
  | rejectRequest approvalId => exact reviewing (ApprovalService.sends_rejectRequest approvalId)
  | expireStaleApprovals => exact reviewing ApprovalService.sends_expireStaleApprovals
  | listPendingRequests => exact reviewing ApprovalService.sends_listPendingRequests
  | _ =>
    first
    | exact absurd trivial h
    | exact reading trivial

/-- A callback that fails one of the checks writes an audit event at most. -/
theorem sends_sparesTransactions {op : Op} (h : ¬ op.Records container.callbackRoute) :
    (program container py op).Sends Msg.SparesTransactions := by
  have reading : ∀ {op : Op}, op.Reads → (program container py op).Sends Msg.SparesTransactions :=
    fun hreads => (sends_of_reads container py hreads).mono fun _ => Msg.OfReading.sparesTransactions
  have reviewing : ∀ {α : Type} {p : App α} {reply : α → Reply}, p.Sends Msg.OfApprovals →
      (reply <$> p).Sends Msg.SparesTransactions :=
    fun hp => .map (hp.mono fun _ => Msg.OfApprovals.sparesTransactions) _
  cases op with
  | postCallback request =>
    refine .map ?_ _
    rcases post_rejected h py with ⟨e, hraises⟩ | ⟨event, response, hreports⟩
    · rw [hraises]
      trivial
    · rw [hreports]
      exact .bind ((sends_ask _).mpr trivial) fun _ => trivial
  | approveRequest approvalId operatorId =>
    exact reviewing (ApprovalService.sends_approveRequest approvalId operatorId)
  | rejectRequest approvalId => exact reviewing (ApprovalService.sends_rejectRequest approvalId)
  | expireStaleApprovals => exact reviewing ApprovalService.sends_expireStaleApprovals
  | listPendingRequests => exact reviewing ApprovalService.sends_listPendingRequests
  | _ =>
    first
    | exact absurd trivial h
    | exact reading trivial

end Programs

section Application

variable {env : Env} {container : AppContainer τ π} {does : Op → Prop} {w w' : World τ π}

/-- What messages of one vocabulary leave alone, the application leaves alone where every operation it
takes and all reading keep to this vocabulary. -/
theorem Drives.keeps {β : Type} {P : Msg → Prop} (f : World τ π → β)
    (clocks : ∀ (v : World τ π) (a : Ambient), f { v with ambient := a } = f v)
    (keep : ∀ m, P m → ∀ v, f (handle env container m v).2 = f v)
    (reads : ∀ m : Msg, m.ReadsOnly → P m)
    (takes : ∀ op, does op → (program container env.toRuntime op).Sends P)
    (drives : Drives env container does w w') : f w' = f w := by
  refine drives.kept (I := fun v => f v = f w) ?_ ?_ ?_ rfl
  · intro v a _ h
    rw [clocks, h]
  · intro m v hm h
    rw [keep m (reads m hm), h]
  · intro op hdoes v h
    rw [step, run_keeps env container f keep (takes op hdoes), h]

/-- A message that writes no transaction leaves them alone, in every repository whose lookups only
read. -/
theorem handle_spares (alone : container.transactionRepository.ReadsAlone) {m : Msg}
    (h : m.SparesTransactions) (w : World τ π) :
    (handle env container m w).2.transactions = w.transactions := by
  cases m with
  | transactions m => exact alone env m _ h
  | provider m => cases m <;> rfl
  | _ => rfl

/-- Where nothing that is driven decides, the approvals stay, by induction on what the input drives. -/
theorem Drives.approvals (drives : Drives env container does w w')
    (spares : ∀ op, does op → ¬ op.Decides) : w'.approvals = w.approvals := by
  refine drives.keeps (P := fun m => m.SparesApprovals ∨ m.ReadsOnly) World.approvals
    (fun _ _ => rfl) ?_ (fun _ => Or.inr) ?_
  · rintro m (hspares | hreads) v
    · exact handle_approvals env container hspares v
    · exact handle_approvals_of_reads hreads v
  · intro op hdoes
    exact (sends_sparesApprovals container env.toRuntime (spares op hdoes)).mono fun _ => Or.inl

/-- Where nothing that is driven pays, the provider is not called. -/
theorem Drives.initiations (drives : Drives env container does w w')
    (spares : ∀ op, does op → ¬ op.Pays) : w'.initiations = w.initiations := by
  refine drives.keeps World.initiations (fun _ _ => rfl)
    (fun m hm v => handle_initiations env container hm v)
    (fun m hm => hm.sparesProvider) ?_
  intro op hdoes
  exact sends_sparesProvider container env.toRuntime (spares op hdoes)

/-- Where nothing that is driven records, the transactions stay. -/
theorem Drives.transactions (alone : container.transactionRepository.ReadsAlone)
    (drives : Drives env container does w w')
    (spares : ∀ op, does op → ¬ op.Records container.callbackRoute) :
    w'.transactions = w.transactions := by
  refine drives.keeps World.transactions (fun _ _ => rfl)
    (fun m hm v => handle_spares alone hm v) (fun m hm => hm.sparesTransactions) ?_
  intro op hdoes
  exact sends_sparesTransactions container env.toRuntime (spares op hdoes)

end Application

/-! ## Inputs -/

variable (surroundings : Surroundings) (server : Server τ π ρ)

/-- An operator who is logged in as an approver at least. -/
def FromApprover (w : ServerWorld τ π ρ) (sent : RouteRequest) : Prop :=
  ∃ principal, Admits surroundings server .approver sent.authorization w principal

/-- The input is a tool that pays, or an approval by an approver. -/
def ServerInput.MayPay (w : ServerWorld τ π ρ) : ServerInput → Prop
  | .tool (.initiateStkPush ..) => True
  | .tool (.initiatePayment ..) => True
  | .tool (.approvePaymentRequest _) => True
  | .request sent =>
    (∃ approvalId, sent.route = .approvePaymentRequest approvalId) ∧
      FromApprover surroundings server w sent
  | _ => False

/-- The input is a tool that pays or decides, or a request of an approver to one of the routes that
write approvals. -/
def ServerInput.MayDecide (w : ServerWorld τ π ρ) : ServerInput → Prop
  | .tool (.initiateStkPush ..) => True
  | .tool (.initiatePayment ..) => True
  | .tool (.approvePaymentRequest _) => True
  | .tool (.rejectPaymentRequest _) => True
  | .request sent =>
    (sent.route = .listPendingApprovals ∨ sent.route = .expireStaleApprovals ∨
      (∃ approvalId, sent.route = .approvePaymentRequest approvalId) ∨
      ∃ approvalId, sent.route = .rejectPaymentRequest approvalId) ∧
      FromApprover surroundings server w sent
  | _ => False

/-- The input is a callback with the right secret, from a trusted source. -/
def ServerInput.Reports : ServerInput → Prop
  | .request sent =>
    ∃ delivery, sent.route = .handleStkCallback delivery ∧ server.callbackRoute.Authenticated delivery
  | .tool _ => False

/-- An input that leads to a decision is entitled to it: the gates of its route or tool let it through
before. -/
theorem ServerInput.mayDecide {input : ServerInput} {w : ServerWorld τ π ρ} {op : Op}
    (does : input.Does surroundings server w op) (decides : op.Decides) :
    input.MayDecide surroundings server w := by
  cases input with
  | tool call => cases call <;> trivial
  | request sent =>
    obtain ⟨route, authorization, header⟩ := sent
    cases route with
    | listPendingApprovals =>
      cases op <;> first | exact ⟨Or.inl rfl, does⟩ | exact absurd does id
    | expireStaleApprovals =>
      cases op <;> first | exact ⟨Or.inr (Or.inl rfl), does⟩ | exact absurd does id
    | approvePaymentRequest approvalId =>
      cases op with
      | executeApprovedPayment id operatorId =>
        obtain ⟨-, principal, hadmits, -⟩ := does
        exact ⟨Or.inr (Or.inr (Or.inl ⟨approvalId, rfl⟩)), principal, hadmits⟩
      | _ => exact absurd does id
    | rejectPaymentRequest approvalId =>
      cases op with
      | rejectRequest id => exact ⟨Or.inr (Or.inr (Or.inr ⟨approvalId, rfl⟩)), does.2⟩
      | _ => exact absurd does id
    | _ => cases op <;> first | exact absurd does id | exact absurd decides id

/-- An input that leads to a payment is entitled to it. -/
theorem ServerInput.mayPay {input : ServerInput} {w : ServerWorld τ π ρ} {op : Op}
    (does : input.Does surroundings server w op) (pays : op.Pays) :
    input.MayPay surroundings server w := by
  cases input with
  | tool call =>
    cases call <;> first | trivial | (cases op <;> first | exact absurd does id | exact absurd pays id)
  | request sent =>
    obtain ⟨route, authorization, header⟩ := sent
    cases route with
    | approvePaymentRequest approvalId =>
      cases op with
      | executeApprovedPayment id operatorId =>
        obtain ⟨-, principal, hadmits, -⟩ := does
        exact ⟨⟨approvalId, rfl⟩, principal, hadmits⟩
      | _ => exact absurd does id
    | _ => cases op <;> first | exact absurd does id | exact absurd pays id

/-- An input that changes a transaction is entitled to a payment, or is a callback that the route
accepts. -/
theorem ServerInput.mayRecord {input : ServerInput} {w : ServerWorld τ π ρ} {op : Op}
    (does : input.Does surroundings server w op) (records : op.Records server.callbackRoute) :
    input.MayPay surroundings server w ∨ input.Reports server := by
  by_cases hpays : op.Pays
  · exact Or.inl (ServerInput.mayPay surroundings server does hpays)
  · refine Or.inr ?_
    cases input with
    | tool call =>
      cases call <;> cases op <;>
        first | exact absurd does id | exact absurd records id | exact absurd trivial hpays
    | request sent =>
      obtain ⟨route, authorization, header⟩ := sent
      cases route with
      | handleStkCallback delivery =>
        cases op with
        | postCallback delivery' =>
          cases does
          exact ⟨delivery, rfl, records⟩
        | _ => exact absurd does id
      | _ =>
        cases op <;>
          first | exact absurd does id | exact absurd records id | exact absurd trivial hpays

/-- **Changes are attributed**: whatever run of the server changes the approval requests, the record of
payments or the transactions has a step behind it that may. Approvals change for the tools that pay or
decide and for operators who are logged in as approvers; the provider is called for a payment in the
tools that pay and for approvals by an approver; transactions change with these, and with callbacks that
show the right secret from a trusted source. -/
theorem changes_attributed (alone : server.transactionRepository.ReadsAlone)
    (inputs : List ServerInput) (w : ServerWorld τ π ρ) :
    let run := trace (serverStep surroundings server) w inputs
    let w' := final (serverStep surroundings server) w inputs
    (w'.app.approvals ≠ w.app.approvals →
      ∃ st ∈ run, st.input.MayDecide surroundings server st.before) ∧
    (w'.app.initiations ≠ w.app.initiations →
      ∃ st ∈ run, st.input.MayPay surroundings server st.before) ∧
    (w'.app.transactions ≠ w.app.transactions →
      ∃ st ∈ run, st.input.MayPay surroundings server st.before ∨ st.input.Reports server) := by
  intro run w'
  refine ⟨?_, ?_, ?_⟩
  · refine exists_of_changed (f := fun v : ServerWorld τ π ρ => v.app.approvals) fun v input hnot => ?_
    refine (serverStep_drives surroundings server input v).approvals fun op hdoes hdecides => ?_
    exact hnot (ServerInput.mayDecide surroundings server hdoes hdecides)
  · refine exists_of_changed (f := fun v : ServerWorld τ π ρ => v.app.initiations) fun v input hnot => ?_
    refine (serverStep_drives surroundings server input v).initiations fun op hdoes hpays => ?_
    exact hnot (ServerInput.mayPay surroundings server hdoes hpays)
  · refine exists_of_changed (f := fun v : ServerWorld τ π ρ => v.app.transactions)
      fun v input hnot => ?_
    refine (serverStep_drives surroundings server input v).transactions alone
      fun op hdoes hrecords => ?_
    exact hnot (ServerInput.mayRecord surroundings server hdoes hrecords)

/-- The payment of two reviews: a step of its run may pay. -/
theorem changes_attributed_dual :
    let w : ServerWorld Transactions Unit RateWindows := .start Keyed.empty () Keyed.empty
    ∃ st ∈ trace (serverStep stillSurroundings tokenServer) w dualApproval,
      st.input.MayPay stillSurroundings tokenServer st.before := by
  intro w
  refine (changes_attributed stillSurroundings tokenServer
    InMemoryTransactionRepository.readsAlone dualApproval w).2.1 ?_
  obtain ⟨call, hcall, -⟩ := dualApproval_pays
  exact List.ne_nil_of_mem hcall

end MpesaMcp
