import MpesaMcp.Laws.Executions

/-!
# What an approved request pays

`_execute_stk_push` looks at the key of a payment alone: where a transaction is stored under the key of
an approved payload, that transaction is the answer, whatever it pays. So the transaction that
`execute_approved_payment` names is the approved one where its key was unused or used for the same
payment, and only there (`approved_is_executed_iff`).
-/

set_option autoImplicit false

namespace MpesaMcp

open Library Python PaymentService

/-! ## The property -/

/-- The transaction is the payment that an approval payload names. -/
structure Pays (payload : PyDict) (t : PendingTransaction) : Prop where
  phoneNumber : (lookup payload "phone_number").asStr? = some t.phoneNumber
  amount : (lookup payload "amount").asInt? = some t.amount
  accountReference : (lookup payload "account_reference").asStr? = some t.accountReference
  description : (lookup payload "description").asStr? = some t.description

section Property

variable {τ π : Type}

/-- An `execute_approved_payment` answers that it approved the request, and that this transaction is
its payment. -/
def ReportsPaid (approvalId transactionId : String) (st : AppStep τ π) : Prop :=
  ∃ operatorId response payment, st.input = .executeApprovedPayment approvalId operatorId ∧
    st.output = .ok (.execution response) ∧ response.status = .approved ∧ response.allowed = true ∧
    response.payment = some payment ∧ payment.transactionId = some transactionId

variable {repository : TransactionRepository τ} (store : RowStore repository)

/-- The transaction is stored, and it is what the approval asked for. -/
def ExecutedAsApproved (approvalId transactionId : String) (st : AppStep τ π) : Prop :=
  ∃ approval t, st.after.approvals.get approvalId = some approval ∧
    (store.rows st.after.transactions).get transactionId = some t ∧ Pays approval.payload t

/-- A transaction that the key of the approved payment finds is that payment. -/
def KeyUnusedOrSame (approvalId : String) (w : World τ π) : Prop :=
  ∀ approval request idempotencyKey t, w.approvals.get approvalId = some approval →
    executablePayload approval.payload = some (request, idempotencyKey) →
    keyMatch idempotencyKey (store.rows w.transactions) = some t → Pays approval.payload t

end Property

/-! ## Payloads -/

/-- What an executable payload names. -/
theorem pays_of_executable {payload : PyDict} {request : InitiatePayment} {idempotencyKey : String}
    (named : executablePayload payload = some (request, idempotencyKey)) {t : PendingTransaction}
    (phoneNumber : t.phoneNumber = request.phoneNumber) (amount : t.amount = request.amount)
    (accountReference : t.accountReference = request.accountReference)
    (description : t.description = request.description) : Pays payload t := by
  unfold executablePayload at named
  simp only [Option.bind_eq_bind, Option.bind_eq_some_iff, Option.some.injEq, Prod.mk.injEq] at named
  obtain ⟨phone, hphone, amt, hamount, reference, hreference, text, htext, key, -, rfl, -⟩ := named
  exact ⟨phoneNumber ▸ hphone, amount ▸ hamount, accountReference ▸ hreference, description ▸ htext⟩

/-! ## One step -/

section Step

variable {τ π : Type} (env : Env) (container : AppContainer τ π)

/-- What one `execute_approved_payment` answers. -/
inductive ExecuteCase (approvalId operatorId : String) (w : World τ π) (output : Except Exn Reply)
    (w' : World τ π) : Prop
  | unpaid (response : ApprovalExecutionResponse) (answer : output = .ok (.execution response))
      (unnamed : ∀ payment, response.payment = some payment → payment.transactionId = none)
  | pushed (a : ApprovalRequest) (stored : w.approvals.get approvalId = some a)
      (request : InitiatePayment) (idempotencyKey : String)
      (named : executablePayload a.payload = some (request, idempotencyKey)) (now : Datetime)
      (w₁ : World τ π) (idle : w.Idle w₁)
      (put : w'.approvals = w.approvals.put (a.approvedBy operatorId now))
      (response : ApprovalServiceResponse)
      (answer : output = (Prog.run (handle env container)
        (executeStkPush request idempotencyKey) w₁).1.map fun payment =>
          .execution (executed response (a.approvedBy operatorId now) payment))
      (after : w' = (Prog.run (handle env container) (executeStkPush request idempotencyKey) w₁).2)

theorem execute_cases (approvalId operatorId : String) (w : World τ π) :
    let r := step env container (.executeApprovedPayment approvalId operatorId) w
    ExecuteCase env container approvalId operatorId w r.1 r.2 := by
  intro r
  obtain ⟨reviewed, w₁, hrun, hend⟩ := reviewForExecution_cases env container approvalId operatorId w
  have hstep := step_of_review env container hrun
  have hidle := run_idle env container (sends_reviewForExecution approvalId operatorId) w
  rw [hrun] at hidle
  cases hend with
  | answered response _ unpaid incomplete =>
    refine .unpaid response (congrArg Prod.fst hstep) fun payment hpayment => ?_
    cases unpaid.symm.trans hpayment
  | completed a stored _ _ _ response _ now _ put =>
    cases hnamed : executablePayload a.payload with
    | none =>
      have hpaid : payReviewed (.inr (response, a.approvedBy operatorId now)) =
          executed response (a.approvedBy operatorId now) <$> executeApprovedStkPush a.payload := rfl
      rw [hpaid, executeApprovedStkPush, hnamed] at hstep
      refine .unpaid _ (congrArg Prod.fst hstep) fun payment hpayment => ?_
      cases hpayment
      rfl
    | some named =>
      obtain ⟨request, idempotencyKey⟩ := named
      rw [payReviewed_of_named hnamed response operatorId now, Prog.run_map] at hstep
      have hafter : r.2 = (Prog.run (handle env container)
        (executeStkPush request idempotencyKey) w₁).2 := congrArg Prod.snd hstep
      have hanswer := congrArg Prod.fst hstep
      refine .pushed a stored request idempotencyKey hnamed now w₁ hidle ?_ response ?_ hafter
      · rw [hafter, ← put]
        exact run_approvals env container ((sends_executeStkPush request idempotencyKey).mono
          fun _ => Msg.OfExecution.sparesApprovals) w₁
      · rw [hanswer]
        cases (Prog.run (handle env container) (executeStkPush request idempotencyKey) w₁).1 <;> rfl

variable {container} (store : RowStore container.transactionRepository)

/-- What a push answers that names a transaction: the row that its key finds, or a new row for its
request. -/
theorem push_named {request : InitiatePayment} {idempotencyKey : String} {w : World τ π}
    {payment : PaymentResponse} {transactionId : String}
    (answer : (Prog.run (handle env container) (executeStkPush request idempotencyKey) w).1 =
      .ok payment) (named : payment.transactionId = some transactionId) :
    let rows' := store.rows
      (Prog.run (handle env container) (executeStkPush request idempotencyKey) w).2.transactions
    (∃ t, keyMatch idempotencyKey (store.rows w.transactions) = some t ∧
      rows'.get transactionId = some t) ∨
    (keyMatch idempotencyKey (store.rows w.transactions) = none ∧
      ∃ response id createdAt updatedAt, rows'.get transactionId =
        some ((saveArguments request idempotencyKey response).record id createdAt updatedAt)) := by
  intro rows'
  cases push_cases env container request idempotencyKey w with
  | unread e _ raised => cases raised.symm.trans answer
  | existing t found replied after =>
    cases replied.symm.trans answer
    cases named
    have hrows : rows' = store.rows w.transactions :=
      (congrArg (fun v => store.rows v.transactions) after).trans (store.lookedUp_rows idempotencyKey w)
    have hfound : keyMatch idempotencyKey (store.rows w.transactions) = some t := by
      rcases (store.lookup env idempotencyKey w.ambient w.transactions).2 with hread | ⟨e, hfailed⟩
      · exact Except.ok.inj (hread.symm.trans found)
      · cases hfailed.symm.trans found
    refine Or.inl ⟨t, hfound, ?_⟩
    rw [hrows]
    exact Keyed.mem_values_iff.mp (List.mem_of_find?_eq_some hfound)
  | declined e _ _ _ replied =>
    cases replied.symm.trans answer
    cases named
  | lost _ _ _ _ e _ _ raised => cases raised.symm.trans answer
  | recorded response missing w₁ pushed t s saved replied after =>
    cases replied.symm.trans answer
    cases named
    obtain ⟨events, after⟩ := after
    have hrows : rows' = store.rows s.2 := congrArg (fun v => store.rows v.transactions) after
    have hcase := store.save env (saveArguments request idempotencyKey response) w₁.ambient
      w₁.transactions
    have hanswer : container.transactionRepository.answer env (.savePendingTransaction
        (saveArguments request idempotencyKey response)) (w₁.ambient, w₁.transactions) =
          (.ok t, s) := saved
    rw [hanswer] at hcase
    refine Or.inr ⟨keyMatch_eq_none.mpr (store.not_hasKey missing), response, ?_⟩
    cases hcase with
    | refused e failed => cases failed
    | stored createdAt updatedAt _ put stored =>
      rcases stored with hstored | ⟨e, hfailed⟩
      · cases hstored
        exact ⟨_, createdAt, updatedAt, by rw [hrows, put]; exact Keyed.get_put_self _ _⟩
      · cases hfailed

/-- A step that reports a payment made the approved one exactly where the key was free for it: with the
key taken, the transaction stored under it answers for the payment, whatever it pays. -/
theorem executed_iff {approvalId transactionId : String} {op : Op} {w : World τ π}
    (reports : ReportsPaid approvalId transactionId (stepAt (step env container) w op)) :
    ExecutedAsApproved store approvalId transactionId (stepAt (step env container) w op) ↔
      KeyUnusedOrSame store approvalId w := by
  obtain ⟨operatorId, answered, payment, rfl, houtput, -, -, hpayment, hid⟩ := reports
  cases execute_cases env container approvalId operatorId w with
  | unpaid response answer unnamed =>
    cases Reply.execution.inj (Except.ok.inj (answer.symm.trans houtput))
    cases (unnamed payment hpayment).symm.trans hid
  | pushed a stored request idempotencyKey named now w₁ idle put response answer after =>
    set st := stepAt (step env container) w (.executeApprovedPayment approvalId operatorId) with hst
    have hafter : st.after = (Prog.run (handle env container)
      (executeStkPush request idempotencyKey) w₁).2 := after
    have happroval : st.after.approvals.get approvalId = some (a.approvedBy operatorId now) := by
      have hkey : a.approvalId = approvalId := Keyed.key_of_get stored
      rw [show st.after.approvals = _ from put]
      exact Keyed.get_put_of_eq _ hkey
    have hpaid : (Prog.run (handle env container) (executeStkPush request idempotencyKey) w₁).1 =
        .ok payment := by
      cases hrun : (Prog.run (handle env container) (executeStkPush request idempotencyKey) w₁).1 with
      | error e =>
        rw [hrun] at answer
        cases answer.symm.trans houtput
      | ok paid =>
        rw [hrun] at answer
        cases Reply.execution.inj (Except.ok.inj (answer.symm.trans houtput))
        cases hpayment
        rfl
    have hpush := push_named env store hpaid hid
    rw [← hafter, idle.1] at hpush
    constructor
    · rintro ⟨approval, u, hgot, hu, hpays⟩ b request' key t hb hnamed hfound
      cases happroval.symm.trans hgot
      cases stored.symm.trans hb
      cases named.symm.trans hnamed
      rcases hpush with ⟨t', hfound', hgot'⟩ | ⟨hmissing, -⟩
      · cases hfound.symm.trans hfound'
        cases hu.symm.trans hgot'
        exact hpays
      · cases hmissing.symm.trans hfound
    · intro hfree
      rcases hpush with ⟨t, hfound, hgot⟩ | ⟨-, sent, id, createdAt, updatedAt, hgot⟩
      · exact ⟨_, t, happroval, hgot, hfree a request idempotencyKey t stored named hfound⟩
      · exact ⟨_, _, happroval, hgot, pays_of_executable named rfl rfl rfl rfl⟩

end Step

/-! ## The theorem -/

/-- **What was approved is what was executed**, exactly where the key of the payload was unused or used
for the same payment: in every run, over every store of rows. -/
theorem approved_is_executed_iff {τ π : Type} (env : Env) (container : AppContainer τ π)
    (store : RowStore container.transactionRepository) (w : World τ π) (ops : List Op) :
    ∀ st ∈ trace (step env container) w ops, ∀ approvalId transactionId,
      ReportsPaid approvalId transactionId st →
        (ExecutedAsApproved store approvalId transactionId st ↔
          KeyUnusedOrSame store approvalId st.before) := by
  intro st hst approvalId transactionId reports
  obtain ⟨before, op, -, -, rfl⟩ := mem_trace_split hst
  exact executed_iff env store reports

/-- A push of 10 shillings under a key, and a request for 20000 under the same key. -/
def keyReused : List Op := [
  .initiateStkPush ⟨some "254700000000", some 10, "order", "goods", some "key"⟩,
  .initiateStkPush ⟨some "254700000000", some 20000, "order", "goods", some "key"⟩]

/-- A request for 20000 shillings under a key of its own. -/
def keyUnused : List Op := [
  .initiateStkPush ⟨some "254700000000", some 20000, "order", "goods", some "key"⟩]

/-- Under a key of its own, a request is paid as it was approved. -/
theorem approved_is_executed_iff_unused :
    let w := final (step .still (.mock {})) (start Keyed.empty ()) keyUnused
    let st := stepAt (step .still (.mock {})) w (.executeApprovedPayment "1" "alice")
    ExecutedAsApproved InMemoryTransactionRepository.rowStore "1" "1111" st ↔
      KeyUnusedOrSame InMemoryTransactionRepository.rowStore "1" w :=
  approved_is_executed_iff .still (.mock {}) InMemoryTransactionRepository.rowStore
    (final (step .still (.mock {})) (start Keyed.empty ()) keyUnused)
    [.executeApprovedPayment "1" "alice"] _ List.mem_cons_self "1" "1111"
    ⟨"alice", _, _, rfl, rfl, rfl, rfl, rfl, rfl⟩

/-- The approval of 20000 shillings is answered with the push of 10. -/
theorem approved_not_executed :
    ¬ ∀ st ∈ trace (step .still (.mock {})) (start Keyed.empty ())
        (keyReused ++ [.executeApprovedPayment "1111" "alice"]),
      ∀ approvalId transactionId, ReportsPaid approvalId transactionId st →
        ExecutedAsApproved InMemoryTransactionRepository.rowStore approvalId transactionId st := by
  intro h
  obtain ⟨approval, t, happroval, ht, hpays⟩ := h
    (stepAt (step .still (.mock {})) (final (step .still (.mock {})) (start Keyed.empty ()) keyReused)
      (.executeApprovedPayment "1111" "alice"))
    (by rw [trace_snoc]; exact List.mem_append_right _ List.mem_cons_self) "1111" "111"
    ⟨"alice", _, _, rfl, rfl, rfl, rfl, rfl, rfl⟩
  cases happroval
  cases ht
  exact absurd hpays.amount (by decide)

end MpesaMcp
