import MpesaMcp.Laws.KeyedPayments

/-!
# Receipts

From an empty in-memory repository that only the services write, and with a provider that repeats no
checkout request id, every completed transaction carries the receipt number of its callback, and no
two transactions share a checkout request id (`Issuable`). So a receipt is generated for exactly the
completed transactions, and the second lookup behind a reference lands on the transaction that the
first one found (`receipts_for_completed`).
-/

set_option autoImplicit false

namespace MpesaMcp

open Library Python StkCallbackHandler PaymentService

/-! ## The property -/

/-- The responses among the recorded calls of the provider. -/
def responses (initiations : List Initiation) : List PaymentInitiationResponse :=
  initiations.filterMap fun call => call.result.toOption

/-- The provider answered no two of the recorded calls with one checkout request id. -/
def FreshCheckouts (initiations : List Initiation) : Prop :=
  ((responses initiations).map PaymentInitiationResponse.checkoutRequestId).Nodup

instance (initiations : List Initiation) : Decidable (FreshCheckouts initiations) :=
  inferInstanceAs (Decidable (List.Nodup _))

/-- The operation reaches the repository through a service only. -/
def Op.ThroughService : Op → Prop
  | .savePendingTransaction _ => False
  | .updateTransactionStatus _ => False
  | _ => True

/-- The receipt tells what is stored of the transaction. -/
structure Receipt.IsFor (receipt : Receipt) (t : PendingTransaction) : Prop where
  transactionId : receipt.transactionId = t.transactionId
  checkoutRequestId : receipt.checkoutRequestId = t.checkoutRequestId
  mpesaReceiptNumber : t.mpesaReceiptNumber = some receipt.mpesaReceiptNumber
  amount : receipt.amount = t.amount
  phoneNumber : receipt.phoneNumber = t.phoneNumber
  status : receipt.status = t.status

/-- The output carries this receipt. -/
def Yields (output : Except Exn Reply) (receipt : Receipt) : Prop :=
  ∃ response, output = .ok (.receipt response) ∧ response.receipt = some receipt

/-- The reference names the transaction. -/
def PendingTransaction.NamedBy (t : PendingTransaction) (reference : String) : Prop :=
  t.checkoutRequestId = reference ∨ t.providerTransactionId = some reference ∨
    t.providerReference = some reference

/-- Receipts are generated for exactly the completed transactions. -/
structure ReceiptsExact {π : Type} (env : Env) (container : AppContainer Transactions π)
    (w : World Transactions π) : Prop where
  issued : ∀ c, c ≠ "" →
    ((∃ receipt, Yields (step env container (.generateReceipt c) w).1 receipt) ↔
      ∃ t ∈ w.transactions.values, t.checkoutRequestId = c ∧ t.status = .completed)
  /-- The branch for a completed transaction without a receipt number is not taken. -/
  numbered : ∀ text response,
    (step env container (.generateReceipt text) w).1 = .ok (.receipt response) ∨
      (step env container (.generateReceiptByReference text) w).1 = .ok (.receipt response) →
    response.reason ≠ "Completed transaction is missing an M-Pesa receipt number."
  about : ∀ c receipt, Yields (step env container (.generateReceipt c) w).1 receipt →
    ∃ t ∈ w.transactions.values, t.checkoutRequestId = c ∧ receipt.IsFor t
  referenced : ∀ reference receipt,
    Yields (step env container (.generateReceiptByReference reference) w).1 receipt →
    ∃ t ∈ w.transactions.values, t.NamedBy reference ∧ receipt.IsFor t
  unchanged : ∀ text, (step env container (.generateReceipt text) w).2.transactions = w.transactions ∧
    (step env container (.generateReceiptByReference text) w).2.transactions = w.transactions

/-! ## One generation -/

section Generation

variable {π : Type} {env : Env} {settings : Settings} {verifier : CallbackSourceVerifier}
  {provider : PaymentProvider π}

/-- What generating a receipt for a checkout request id answers in memory. -/
inductive Generation (c : String) (transactions : Transactions) (response : ReceiptServiceResponse) :
    Prop
  | refused (without : response.receipt = none)
      (reason : response.reason ≠ "Completed transaction is missing an M-Pesa receipt number.")
      (unfinished : c ≠ "" → ∀ t, firstMatch c transactions = some t → t.status ≠ .completed)
  | unnumbered (t : PendingTransaction) (found : firstMatch c transactions = some t)
      (completed : t.status = .completed) (missing : t.mpesaReceiptNumber = none)
      (without : response.receipt = none)
  | generated (t : PendingTransaction) (found : firstMatch c transactions = some t)
      (completed : t.status = .completed) (receipt : Receipt) (isFor : receipt.IsFor t)
      (carried : response.receipt = some receipt)
      (reason : response.reason ≠ "Completed transaction is missing an M-Pesa receipt number.")

/-- A receipt is generated, blocked or not found, as the first transaction with the id has it; the
service never raises in memory. -/
theorem generateReceipt_cases (c : String) (w : World Transactions π) :
    ∃ response w', Prog.run (handle env (.inMemory settings verifier provider))
        (ReceiptService.generateReceipt c) w = (.ok response, w') ∧
      Generation c w.transactions response := by
  rw [ReceiptService.generateReceipt]
  split
  next hempty =>
    exact ⟨_, w, rfl, .refused rfl (by decide) fun hnonempty => absurd hempty hnonempty⟩
  next =>
    have hlookup : handle env (.inMemory settings verifier provider)
        (.transactions (.findByCheckoutRequestId c)) w = (.ok (firstMatch c w.transactions), w) := rfl
    simp only [Prog.run_bind, run_ask, hlookup]
    cases hfound : firstMatch c w.transactions with
    | none =>
      refine ⟨_, w, rfl, .refused rfl (by decide) ?_⟩
      intro _ t hsome
      cases hfound.symm.trans hsome
    | some t =>
      simp only [Prog.run_bind, ReceiptGenerator.generate]
      by_cases hstatus : t.status = .completed
      · rw [if_neg (not_not_intro hstatus)]
        cases hnumber : t.mpesaReceiptNumber with
        | none => exact ⟨_, w, rfl, .unnumbered t hfound hstatus hnumber rfl⟩
        | some number =>
          exact ⟨_, _, rfl, .generated t hfound hstatus _ ⟨rfl, rfl, hnumber, rfl, rfl, rfl⟩ rfl
            (by simp)⟩
      · rw [if_pos hstatus]
        refine ⟨_, w, rfl, .refused rfl (by decide) ?_⟩
        intro _ u hsome
        cases hfound.symm.trans hsome
        exact hstatus

/-- A reference is looked up to the checkout request id of a transaction that it names, and a receipt
is generated for that. -/
theorem generateReceiptByReference_cases (reference : String) (w : World Transactions π) :
    ∃ response w', Prog.run (handle env (.inMemory settings verifier provider))
        (ReceiptService.generateReceiptByReference reference) w = (.ok response, w') ∧
      ((response.receipt = none ∧
          response.reason ≠ "Completed transaction is missing an M-Pesa receipt number.") ∨
        ∃ t ∈ w.transactions.values, t.NamedBy reference ∧
          Generation t.checkoutRequestId w.transactions response) := by
  rw [ReceiptService.generateReceiptByReference]
  split
  next => exact ⟨_, w, rfl, .inl ⟨rfl, by decide⟩⟩
  next =>
    have hlookup : handle env (.inMemory settings verifier provider)
        (.transactions (.findByCheckoutRequestId reference)) w =
          (.ok (firstMatch reference w.transactions), w) := rfl
    have hlist : handle env (.inMemory settings verifier provider)
        (.transactions .listTransactions) w = (.ok w.transactions.values, w) := rfl
    simp only [Prog.run_bind, run_ask, hlookup]
    cases hfound : firstMatch reference w.transactions with
    | some t =>
      obtain ⟨response, w', hrun, hcase⟩ := @generateReceipt_cases π env settings verifier provider
        t.checkoutRequestId w
      exact ⟨response, w', hrun, .inr ⟨t, List.mem_of_find?_eq_some hfound,
        .inl (get_of_firstMatch hfound).2, hcase⟩⟩
    | none =>
      simp only [Prog.run_bind, run_ask, hlist]
      split
      next => exact ⟨_, w, rfl, .inl ⟨rfl, by decide⟩⟩
      next t hcandidate =>
        obtain ⟨response, w', hrun, hcase⟩ := @generateReceipt_cases π env settings verifier provider
          t.checkoutRequestId w
        have hnamed : t.providerTransactionId = some reference ∨
            t.providerReference = some reference := by
          simpa using List.find?_some hcandidate
        exact ⟨response, w', hrun, .inr ⟨t, List.mem_of_find?_eq_some hcandidate, .inr hnamed, hcase⟩⟩

end Generation

/-! ## What a step stores -/

section Step

variable {π : Type} {env : Env} {settings : Settings} {verifier : CallbackSourceVerifier}
  {provider : PaymentProvider π}

/-- What an operation that goes through a service stores. -/
inductive ServiceStep (env : Env) (w w' : World Transactions π) : Prop
  | same (transactions : w'.transactions = w.transactions)
  | recorded (request : InitiatePayment) (idempotencyKey : String)
      (response : PaymentInitiationResponse) (k : Nat) (createdAt updatedAt : Datetime)
      (put : w'.transactions = w.transactions.put
        ((saveArguments request idempotencyKey response).record (env.uuid4 k) createdAt updatedAt))
      (call : Initiation) (accepted : call.result = .ok response)
      (calls : w'.initiations = w.initiations ++ [call])
  | moved (f : CallbackFields) (t : PendingTransaction)
      (found : firstMatch f.checkoutRequestId w.transactions = some t)
      (accepts : f.Accepts env.toRuntime t) (now : Datetime)
      (put : w'.transactions =
        w.transactions.put ((f.update env.toRuntime).apply t (targetStatus f.resultCode) now))

/-- A push, from a world with the same transactions and calls: what was reviewed before it is of no
account here. -/
theorem ServiceStep.of_push {request : InitiatePayment} {idempotencyKey : String}
    {w w₁ : World Transactions π} (idle : w.Idle w₁) :
    ServiceStep env w (Prog.run (handle env (.inMemory settings verifier provider))
      (executeStkPush request idempotencyKey) w₁).2 := by
  obtain ⟨htransactions, hinitiations⟩ := idle
  cases push_memory env settings verifier provider request idempotencyKey w₁ with
  | existing t found answer after =>
    rw [after]
    exact .same htransactions
  | declined missing e answer transactions => exact .same (transactions.trans htransactions)
  | recorded missing response t k drawn createdAt updatedAt record answer put events metrics call
      accepted calls =>
    subst record
    rw [htransactions] at put
    rw [hinitiations] at calls
    exact .recorded request idempotencyKey response k createdAt updatedAt put call accepted calls

/-- A callback of the handler, from a world with the same transactions. -/
theorem ServiceStep.of_process {payload : PyDict} {w w₁ w' : World Transactions π}
    (start : w₁.transactions = w.transactions)
    (stop : w'.transactions = (Prog.run (handle env (.inMemory settings verifier provider))
      (process env.toRuntime payload) w₁).2.transactions) : ServiceStep env w w' := by
  rcases memory_process env settings verifier provider payload w₁ with
    ⟨-, same, -⟩ | ⟨f, t, -, found, accepts, -, put⟩
  · exact .same (stop.trans (same.trans start))
  · rw [start] at found put
    exact .moved f t found accepts _ (stop.trans put)

/-- An operation that writes no transaction is a service step of the first kind. -/
theorem serviceStep_of_spared {op : Op} (sends : (program (.inMemory settings verifier provider)
    env.toRuntime op).Sends Msg.SparesTransactions) (w : World Transactions π) :
    ServiceStep env w (step env (.inMemory settings verifier provider) op w).2 :=
  .same (run_keeps env _ World.transactions
    (fun _ hm => memory_handle env settings verifier provider hm) sends w)

/-- An initiation saves the push that the provider accepted, or nothing. -/
theorem service_initiateStkPush (args : InitiateStkPush) (w : World Transactions π) :
    ServiceStep env w
      (step env (.inMemory settings verifier provider) (.initiateStkPush args) w).2 := by
  obtain ⟨output, w', hrun, hcase⟩ :=
    initiation_cases env (.inMemory settings verifier provider) args w
  have hstep : (step env (.inMemory settings verifier provider) (.initiateStkPush args) w).2 = w' :=
    step_after env (.inMemory settings verifier provider) rfl hrun
  rw [hstep]
  cases hcase with
  | quiet _ idle => exact .same idle.1
  | filed _ _ _ _ _ _ _ _ _ _ idle => exact .same idle.1
  | paid request _ _ _ ran =>
    have hpush := @ServiceStep.of_push π env settings verifier provider request
      (keyFor env.toRuntime args request) w w ⟨rfl, rfl⟩
    rw [ran] at hpush
    exact hpush

/-- An execution does too; the review before it writes no transaction. -/
theorem service_executeApprovedPayment (approvalId operatorId : String) (w : World Transactions π) :
    ServiceStep env w (step env (.inMemory settings verifier provider)
      (.executeApprovedPayment approvalId operatorId) w).2 := by
  obtain ⟨output, w', hrun, hcase⟩ := execution_cases env (.inMemory settings verifier provider)
    approvalId operatorId w
  have hstep : (step env (.inMemory settings verifier provider)
      (.executeApprovedPayment approvalId operatorId) w).2 = w' :=
    step_after env (.inMemory settings verifier provider) rfl hrun
  rw [hstep]
  cases hcase with
  | absent _ _ _ idle => exact .same idle.1
  | expired _ _ _ _ _ idle => exact .same idle.1
  | refused _ _ _ _ _ idle => exact .same idle.1
  | reviewed _ _ _ _ _ _ _ _ idle => exact .same idle.1
  | approved a _ _ _ _ _ w₁ _ _ idle paid =>
    rw [paid, executeApprovedStkPush]
    split
    · exact .same idle.1
    · exact .of_push idle

/-- **What an operation stores** that goes through a service: nothing, one settled transaction, or one
pending transaction with the response of the call just made. -/
theorem service_step {op : Op} (service : op.ThroughService) (w : World Transactions π) :
    ServiceStep env w (step env (.inMemory settings verifier provider) op w).2 := by
  cases opKind (.inMemory settings verifier provider) env.toRuntime op with
  | initiates args => exact service_initiateStkPush args w
  | executes approvalId operatorId => exact service_executeApprovedPayment approvalId operatorId w
  | saves args => exact absurd service id
  | updates args => exact absurd service id
  | handles payload =>
    have stop : (step env (.inMemory settings verifier provider) (.process payload) w).2.transactions =
        (Prog.run (handle env (.inMemory settings verifier provider)) (process env.toRuntime payload)
          w).2.transactions := by
      rw [step, program, Prog.run_map]
    exact .of_process rfl stop
  | posts request =>
    rcases step_postCallback env (.inMemory settings verifier provider) request w with
      ⟨-, same, -⟩ | ⟨-, -, stop, -⟩
    · exact .same same
    · exact .of_process (World.admitted_transactions _ _ _ w) stop
  | reviews sends =>
    exact serviceStep_of_spared (sends.mono fun _ => Msg.OfApprovals.sparesTransactions) w
  | reads sends =>
    exact serviceStep_of_spared (sends.mono fun _ => Msg.OfReading.sparesTransactions) w

end Step

/-! ## The record of calls -/

section Calls

variable {τ π : Type} {env : Env} {container : AppContainer τ π}

/-- The calls of the provider are only ever added to. -/
theorem handle_initiations_prefix (m : Msg) (w : World τ π) :
    w.initiations <+: (handle env container m w).2.initiations := by
  cases m with
  | provider m =>
    cases m with
    | initiatePayment args => exact List.prefix_append _ _
    | checkTransactionStatus reference => exact List.prefix_refl _
  | _ => exact List.prefix_refl _

/-- Calls are only added to the record. -/
theorem step_initiations_prefix (op : Op) (w : World τ π) :
    w.initiations <+: (step env container op w).2.initiations :=
  Prog.run_related (R := fun w w' : World τ π => w.initiations <+: w'.initiations)
    (fun _ => List.prefix_refl _) (fun _ _ _ h h' => h.trans h')
    (fun m _ => handle_initiations_prefix m) (Prog.sends_true _) w

/-- The responses of a run are those of its parts. -/
theorem responses_append (calls calls' : List Initiation) :
    responses (calls ++ calls') = responses calls ++ responses calls' := List.filterMap_append

/-- Ids that never repeat did not repeat before. -/
theorem FreshCheckouts.of_prefix {calls calls' : List Initiation} (h : FreshCheckouts calls')
    (before : calls <+: calls') : FreshCheckouts calls := by
  obtain ⟨later, rfl⟩ := before
  rw [FreshCheckouts, responses_append, List.map_append] at h
  exact h.of_append_left

end Calls

/-! ## The invariant -/

section Invariant

variable {π : Type} {env : Env} {settings : Settings} {verifier : CallbackSourceVerifier}
  {provider : PaymentProvider π}

/-- Completed transactions carry a receipt number, and no two transactions share the checkout request
id, which is that of a response. -/
structure Issuable (w : World Transactions π) : Prop where
  numbered : ∀ t ∈ w.transactions.values, t.status = .completed → t.mpesaReceiptNumber.isSome
  answered : ∀ t ∈ w.transactions.values,
    ∃ response ∈ responses w.initiations, response.checkoutRequestId = t.checkoutRequestId
  distinct : ∀ t ∈ w.transactions.values, ∀ u ∈ w.transactions.values,
    t.checkoutRequestId = u.checkoutRequestId → t = u

/-- A transaction of an answered push. -/
theorem Issuable.record {w w' : World Transactions π} (h : Issuable w)
    {response : PaymentInitiationResponse} {t : PendingTransaction} (pending : t.status = .pending)
    (named : t.checkoutRequestId = response.checkoutRequestId)
    (put : w'.transactions = w.transactions.put t)
    (calls : responses w'.initiations = responses w.initiations ++ [response])
    (fresh : FreshCheckouts w'.initiations) : Issuable w' := by
  have hnew : ∀ u ∈ w.transactions.values, u.checkoutRequestId ≠ t.checkoutRequestId := by
    intro u hu hsame
    obtain ⟨old, hold, hid⟩ := h.answered u hu
    rw [FreshCheckouts, calls, List.map_append] at fresh
    refine List.disjoint_of_nodup_append fresh (List.mem_map.mpr ⟨old, hold, rfl⟩) ?_
    rw [hid, hsame, named]
    exact List.mem_singleton_self _
  refine ⟨?_, ?_, ?_⟩
  · intro u hu hcompleted
    rw [put] at hu
    rcases Keyed.mem_values_put.mp hu with rfl | ⟨hu, -⟩
    · cases pending.symm.trans hcompleted
    · exact h.numbered u hu hcompleted
  · intro u hu
    rw [put] at hu
    rw [calls]
    rcases Keyed.mem_values_put.mp hu with rfl | ⟨hu, -⟩
    · exact ⟨response, List.mem_append_right _ (List.mem_singleton_self _), named.symm⟩
    · obtain ⟨old, hold, hid⟩ := h.answered u hu
      exact ⟨old, List.mem_append_left _ hold, hid⟩
  · intro u hu v hv hsame
    rw [put] at hu hv
    rcases Keyed.mem_values_put.mp hu with hut | ⟨hu, -⟩
    · rcases Keyed.mem_values_put.mp hv with hvt | ⟨hv, -⟩
      · rw [hut, hvt]
      · rw [hut] at hsame
        exact absurd hsame.symm (hnew v hv)
    · rcases Keyed.mem_values_put.mp hv with hvt | ⟨hv, -⟩
      · rw [hvt] at hsame
        exact absurd hsame (hnew u hu)
      · exact h.distinct u hu v hv hsame

/-- A transaction that a callback moves. -/
theorem Issuable.move {w w' : World Transactions π} (h : Issuable w) {f : CallbackFields}
    {t : PendingTransaction} (found : firstMatch f.checkoutRequestId w.transactions = some t)
    (accepts : f.Accepts env.toRuntime t) {now : Datetime}
    (put : w'.transactions =
      w.transactions.put ((f.update env.toRuntime).apply t (targetStatus f.resultCode) now))
    (calls : w.initiations <+: w'.initiations) : Issuable w' := by
  have ht : t ∈ w.transactions.values := List.mem_of_find?_eq_some found
  obtain ⟨later, hlater⟩ := calls
  have hanswered : ∀ u ∈ w.transactions.values,
      ∃ response ∈ responses w'.initiations, response.checkoutRequestId = u.checkoutRequestId := by
    intro u hu
    obtain ⟨old, hold, hid⟩ := h.answered u hu
    rw [← hlater, responses_append]
    exact ⟨old, List.mem_append_left _ hold, hid⟩
  refine ⟨?_, ?_, ?_⟩
  · intro u hu hcompleted
    rw [put] at hu
    rcases Keyed.mem_values_put.mp hu with rfl | ⟨hu, -⟩
    · exact (accepts.complete (targetStatus_eq_completed.mp hcompleted)).2.1
    · exact h.numbered u hu hcompleted
  · intro u hu
    rw [put] at hu
    rcases Keyed.mem_values_put.mp hu with rfl | ⟨hu, -⟩
    · exact hanswered t ht
    · exact hanswered u hu
  · intro u hu v hv hsame
    rw [put] at hu hv
    rcases Keyed.mem_values_put.mp hu with hut | ⟨hu, hune⟩
    · rcases Keyed.mem_values_put.mp hv with hvt | ⟨hv, hvne⟩
      · rw [hut, hvt]
      · rw [hut] at hsame
        have htv : t = v := h.distinct t ht v hv hsame
        exact absurd (by rw [← htv]; rfl) hvne
    · rcases Keyed.mem_values_put.mp hv with hvt | ⟨hv, -⟩
      · rw [hvt] at hsame
        have hut : u = t := h.distinct u hu t ht hsame
        exact absurd (by rw [hut]; rfl) hune
      · exact h.distinct u hu v hv hsame

/-- The step of the invariant: a save stores the response of the call just made, whose checkout id no
stored transaction carries, and an update settles one transaction with a receipt number where it
completes it. -/
theorem issuable_step {op : Op} (service : op.ThroughService) {w : World Transactions π}
    (h : FreshCheckouts w.initiations → Issuable w) :
    let w' := (step env (.inMemory settings verifier provider) op w).2
    FreshCheckouts w'.initiations → Issuable w' := by
  intro w' hfresh
  have hprefix : w.initiations <+: w'.initiations := step_initiations_prefix op w
  have hbefore := h (hfresh.of_prefix hprefix)
  cases @service_step π env settings verifier provider op service w with
  | same transactions =>
    have htransactions : w'.transactions = w.transactions := transactions
    obtain ⟨later, hlater⟩ := hprefix
    refine ⟨?_, ?_, ?_⟩
    · rw [htransactions]
      exact hbefore.numbered
    · rw [htransactions, ← hlater, responses_append]
      intro t ht
      obtain ⟨old, hold, hid⟩ := hbefore.answered t ht
      exact ⟨old, List.mem_append_left _ hold, hid⟩
    · rw [htransactions]
      exact hbefore.distinct
  | recorded request idempotencyKey response k createdAt updatedAt put call accepted calls =>
    refine hbefore.record rfl rfl put ?_ hfresh
    rw [calls, responses_append]
    simp [responses, accepted, Except.toOption]
  | moved f t found accepts now put => exact hbefore.move found accepts put hprefix

/-- Every run through services from an empty repository reaches a state in which receipts can be
issued, as long as the provider never answered with one checkout id twice. -/
theorem issuable_final (state : π) {ops : List Op} (services : ∀ op ∈ ops, op.ThroughService) :
    let w := final (step env (.inMemory settings verifier provider)) (start Keyed.empty state) ops
    FreshCheckouts w.initiations → Issuable w := by
  refine invariant_of (C := fun st : AppStep Transactions π => st.input.ThroughService)
    (I := fun _ w => FreshCheckouts w.initiations → Issuable w) ?_ ?_ ops ?_
  · intro _
    exact ⟨fun t ht => absurd ht List.not_mem_nil, fun t ht => absurd ht List.not_mem_nil,
      fun t ht => absurd ht List.not_mem_nil⟩
  · intro _ w op hservice h
    exact issuable_step hservice h
  · intro st hst
    obtain ⟨before, op, later, rfl, rfl⟩ := mem_trace_split hst
    exact services op (List.mem_append_right _ (List.mem_cons_self ..))

/-- The transaction with its checkout request id is the one the lookup finds. -/
theorem Issuable.firstMatch_eq {w : World Transactions π} (h : Issuable w) {t : PendingTransaction}
    (stored : t ∈ w.transactions.values) :
    firstMatch t.checkoutRequestId w.transactions = some t := by
  cases hfound : firstMatch t.checkoutRequestId w.transactions with
  | none =>
    have hnone := List.find?_eq_none.mp hfound t stored
    simp at hnone
  | some u =>
    have hu : u ∈ w.transactions.values := List.mem_of_find?_eq_some hfound
    rw [h.distinct u hu t stored (get_of_firstMatch hfound).2]

/-- A completed transaction has its receipt number, so the reason for a missing one is never given. -/
theorem Issuable.reason_ne {w : World Transactions π} (h : Issuable w) {c : String}
    {response : ReceiptServiceResponse} (generation : Generation c w.transactions response) :
    response.reason ≠ "Completed transaction is missing an M-Pesa receipt number." := by
  cases generation with
  | refused _ reason _ => exact reason
  | unnumbered t found completed missing _ =>
    have hsome := h.numbered t (List.mem_of_find?_eq_some found) completed
    rw [missing] at hsome
    cases hsome
  | generated _ _ _ _ _ _ reason => exact reason

/-- A receipt is carried exactly for a completed transaction: the lookup by its checkout id finds the
transaction itself, since no other carries this id. -/
theorem Issuable.carried_iff {w : World Transactions π} (h : Issuable w) {c : String}
    (nonempty : c ≠ "") {response : ReceiptServiceResponse}
    (generation : Generation c w.transactions response) :
    (∃ receipt, response.receipt = some receipt) ↔
      ∃ t ∈ w.transactions.values, t.checkoutRequestId = c ∧ t.status = .completed := by
  constructor
  · rintro ⟨receipt, hreceipt⟩
    cases generation with
    | refused without _ _ => cases without.symm.trans hreceipt
    | unnumbered _ _ _ _ without => cases without.symm.trans hreceipt
    | generated t found completed _ _ _ _ =>
      exact ⟨t, List.mem_of_find?_eq_some found, (get_of_firstMatch found).2, completed⟩
  · rintro ⟨t, hstored, rfl, hcompleted⟩
    have hfound := h.firstMatch_eq hstored
    cases generation with
    | refused _ _ unfinished => exact absurd hcompleted (unfinished nonempty t hfound)
    | unnumbered u found completed missing _ =>
      have hsome := h.numbered u (List.mem_of_find?_eq_some found) completed
      rw [missing] at hsome
      cases hsome
    | generated _ _ _ receipt _ carried _ => exact ⟨receipt, carried⟩

/-- A receipt is that of the transaction with the checkout request id. -/
theorem Generation.isFor {transactions : Transactions} {c : String} {response : ReceiptServiceResponse}
    (generation : Generation c transactions response) {receipt : Receipt}
    (carried : response.receipt = some receipt) :
    ∃ t, firstMatch c transactions = some t ∧ receipt.IsFor t := by
  cases generation with
  | refused without _ _ => cases without.symm.trans carried
  | unnumbered _ _ _ _ without => cases without.symm.trans carried
  | generated t found _ receipt' isFor carried' _ =>
    cases carried'.symm.trans carried
    exact ⟨t, found, isFor⟩

/-- The operation answers what the service makes of the store as it is. -/
theorem step_generateReceipt (c : String) (w : World Transactions π) :
    ∃ response, (step env (.inMemory settings verifier provider) (.generateReceipt c) w).1 =
        .ok (.receipt response) ∧ Generation c w.transactions response := by
  obtain ⟨response, w', hrun, hcase⟩ := @generateReceipt_cases π env settings verifier provider c w
  refine ⟨response, ?_, hcase⟩
  simp only [step, program, Prog.run_map, hrun, Except.map]

/-- A reference names a transaction, and the receipt is that of its checkout id; where it names none,
no receipt is made. -/
theorem step_generateReceiptByReference (reference : String) (w : World Transactions π) :
    ∃ response, (step env (.inMemory settings verifier provider)
        (.generateReceiptByReference reference) w).1 = .ok (.receipt response) ∧
      ((response.receipt = none ∧
          response.reason ≠ "Completed transaction is missing an M-Pesa receipt number.") ∨
        ∃ t ∈ w.transactions.values, t.NamedBy reference ∧
          Generation t.checkoutRequestId w.transactions response) := by
  obtain ⟨response, w', hrun, hcase⟩ := @generateReceiptByReference_cases π env settings verifier
    provider reference w
  refine ⟨response, ?_, hcase⟩
  simp only [step, program, Prog.run_map, hrun, Except.map]

/-- **Such a state generates receipts exactly.** -/
theorem Issuable.receiptsExact {w : World Transactions π} (h : Issuable w) :
    ReceiptsExact env (.inMemory settings verifier provider) w := by
  have hreceipt := fun c => @step_generateReceipt π env settings verifier provider c w
  have hreference := fun reference =>
    @step_generateReceiptByReference π env settings verifier provider reference w
  refine ⟨?_, ?_, ?_, ?_, ?_⟩
  · intro c hnonempty
    obtain ⟨response, hout, hcase⟩ := hreceipt c
    rw [← h.carried_iff hnonempty hcase]
    simp [Yields, hout]
  · rintro text response (hout | hout)
    · obtain ⟨response', hout', hcase⟩ := hreceipt text
      cases hout'.symm.trans hout
      exact h.reason_ne hcase
    · obtain ⟨response', hout', hcase⟩ := hreference text
      cases hout'.symm.trans hout
      rcases hcase with ⟨-, hreason⟩ | ⟨t, -, -, hcase⟩
      · exact hreason
      · exact h.reason_ne hcase
  · rintro c receipt ⟨response, hout, hcarried⟩
    obtain ⟨response', hout', hcase⟩ := hreceipt c
    cases hout'.symm.trans hout
    obtain ⟨t, hfound, hisFor⟩ := hcase.isFor hcarried
    exact ⟨t, List.mem_of_find?_eq_some hfound, (get_of_firstMatch hfound).2, hisFor⟩
  · rintro reference receipt ⟨response, hout, hcarried⟩
    obtain ⟨response', hout', hcase⟩ := hreference reference
    cases hout'.symm.trans hout
    rcases hcase with ⟨hnone, -⟩ | ⟨t, hstored, hnamed, hcase⟩
    · cases hnone.symm.trans hcarried
    · obtain ⟨u, hfound, hisFor⟩ := hcase.isFor hcarried
      -- the second lookup lands on the transaction that the first one found
      cases (h.firstMatch_eq hstored).symm.trans hfound
      exact ⟨t, hstored, hnamed, hisFor⟩
  · intro text
    exact ⟨run_keeps env _ World.transactions
        (fun _ hm => memory_handle env settings verifier provider hm)
        (.map ((ReceiptService.sends_generateReceipt text).mono
          fun _ => Msg.OfReading.sparesTransactions) _) w,
      run_keeps env _ World.transactions
        (fun _ hm => memory_handle env settings verifier provider hm)
        (.map ((ReceiptService.sends_generateReceiptByReference text).mono
          fun _ => Msg.OfReading.sparesTransactions) _) w⟩

end Invariant

/-- **Receipts are generated for exactly the completed transactions**, after every run through services
from an empty in-memory repository, where the provider repeats no checkout request id; then every id
names one transaction, and a completed one has its receipt number. -/
theorem receipts_for_completed {π : Type} (env : Env) (settings : Settings)
    (verifier : CallbackSourceVerifier) (provider : PaymentProvider π) (state : π) (ops : List Op)
    (services : ∀ op ∈ ops, op.ThroughService)
    (fresh : FreshCheckouts (final (step env (.inMemory settings verifier provider))
      (start Keyed.empty state) ops).initiations) :
    ReceiptsExact env (.inMemory settings verifier provider)
      (final (step env (.inMemory settings verifier provider)) (start Keyed.empty state) ops) :=
  (issuable_final state services fresh).receiptsExact

/-- A push, its success callback, and a push that stays pending. -/
def pushedAndPaid : List Op :=
  [.initiateStkPush ⟨some "254700000000", some 10, "order", "goods", some "key"⟩,
    .process [("Body", .dict [("stkCallback", .dict [
      ("CheckoutRequestID", .str "ws_CO_1"),
      ("ResultCode", .int 0),
      ("ResultDesc", .str "Processed."),
      ("CallbackMetadata", .dict [("Item", .list [
        .dict [("Name", .str "Amount"), ("Value", .int 10)],
        .dict [("Name", .str "MpesaReceiptNumber"), ("Value", .str "NLJ7RT61SV")],
        .dict [("Name", .str "PhoneNumber"), ("Value", .str "254700000000")]])])])])],
    .initiateStkPush ⟨some "254700000001", some 20, "order", "goods", some "other"⟩]

example : (final (step .still (.mock {})) (start Keyed.empty ()) pushedAndPaid).transactions.values.map
      (fun t => (t.checkoutRequestId, t.status)) =
    [("ws_CO_1", .completed), ("ws_CO_1111", .pending)] := by
  decide +kernel

/-- Of a paid and a pending transaction, a receipt is generated for the paid one. -/
theorem receipts_for_completed_paid :
    ReceiptsExact .still (.inMemory {} .development MockDarajaPaymentProvider)
      (final (step .still (.inMemory {} .development MockDarajaPaymentProvider)) (start Keyed.empty ())
        pushedAndPaid) := by
  have hservices : ∀ op ∈ pushedAndPaid, op.ThroughService := by
    simp [pushedAndPaid, Op.ThroughService]
  have hfresh : FreshCheckouts (final
      (step .still (.inMemory {} .development MockDarajaPaymentProvider)) (start Keyed.empty ())
      pushedAndPaid).initiations := by
    decide +kernel
  exact receipts_for_completed .still {} .development MockDarajaPaymentProvider () pushedAndPaid
    hservices hfresh

end MpesaMcp
