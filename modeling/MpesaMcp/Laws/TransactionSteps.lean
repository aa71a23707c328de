import MpesaMcp.Laws.Deliveries
import MpesaMcp.Laws.Pushes

/-!
# What one step can do to the stored transactions

Over the in-memory repository, an operation leaves the transactions alone, saves one pending record,
or moves the first transaction with a checkout request id out of pending (`StoreCase`). It does the
last two only where it reports no refusal.
-/

set_option autoImplicit false

namespace MpesaMcp

open Library Python StkCallbackHandler

/-- The processing result in a reply. -/
def Reply.processing? : Reply → Option CallbackProcessingResult
  | .processed result => some result
  | .callback (.processed result) => some result
  | _ => none

/-- The reply tells that a callback or an update was not applied, or that a receipt was blocked or its
transaction not found. -/
def Reply.Refuses : Reply → Prop
  | .processed result => ¬ result.status.Applied
  | .callback (.processed result) => ¬ result.status.Applied
  | .callback _ => True
  | .updated none => True
  | .receipt response => response.status ≠ .generated
  | _ => False

/-- The operation raised, or answered with a refusal. -/
def Refused : Except Exn Reply → Prop
  | .error _ => True
  | .ok reply => reply.Refuses

/-- The output reports a callback that was applied to the transaction with this id. -/
def Applies (checkoutRequestId : String) (output : Except Exn Reply) : Prop :=
  ∃ reply result, output = .ok reply ∧ reply.processing? = some result ∧ result.status.Applied ∧
    result.checkoutRequestId = some checkoutRequestId

instance (checkoutRequestId : String) (output : Except Exn Reply) :
    Decidable (Applies checkoutRequestId output) :=
  match output with
  | .error _ => .isFalse fun ⟨_, _, hout, _⟩ => nomatch hout
  | .ok reply =>
    decidable_of_iff (∃ result ∈ reply.processing?, result.status.Applied ∧
        result.checkoutRequestId = some checkoutRequestId)
      ⟨fun ⟨result, hresult, h⟩ => ⟨reply, result, rfl, hresult, h⟩,
        fun ⟨_, result, hout, hresult, h⟩ => ⟨result, Except.ok.inj hout ▸ hresult, h⟩⟩

/-- The first transaction with a checkout request id, which is the one lookups find. -/
abbrev firstMatch (checkoutRequestId : String) (transactions : Transactions) :
    Option PendingTransaction :=
  InMemoryTransactionRepository.findByCheckoutRequestId checkoutRequestId transactions

/-- The first match is stored under its own key. -/
theorem get_of_firstMatch {checkoutRequestId : String} {transactions : Transactions}
    {t : PendingTransaction} (found : firstMatch checkoutRequestId transactions = some t) :
    transactions.get t.transactionId = some t ∧ t.checkoutRequestId = checkoutRequestId :=
  ⟨Keyed.mem_values_iff.mp (List.mem_of_find?_eq_some found), by simpa using List.find?_some found⟩

/-- What one step does to the stored transactions. -/
inductive StoreCase {π : Type} (env : Env) (w : World Transactions π) (output : Except Exn Reply)
    (w' : World Transactions π) : Prop
  | same (transactions : w'.transactions = w.transactions) (quiet : ∀ id, ¬ Applies id output)
  | saved (args : SavePendingTransaction) (k : Nat)
      (drawn : w.ambient.uuidDraws ≤ k ∧ k < w'.ambient.uuidDraws) (createdAt updatedAt : Datetime)
      (put : w'.transactions = w.transactions.put (args.record (env.uuid4 k) createdAt updatedAt))
      (accepted : ¬ Refused output) (quiet : ∀ id, ¬ Applies id output)
  | moved (args : UpdateTransactionStatus) (t : PendingTransaction)
      (found : firstMatch args.checkoutRequestId w.transactions = some t)
      (pending : t.status = .pending) (status : TransactionStatus) (terminal : status.Terminal)
      (now : Datetime) (put : w'.transactions = w.transactions.put (args.apply t status now))
      (accepted : ¬ Refused output)
      (about : ∀ id, Applies id output → id = args.checkoutRequestId)

variable {π : Type} (env : Env) (settings : Settings) (verifier : CallbackSourceVerifier)
  (provider : PaymentProvider π)

/-! ## Messages of the in-memory repository -/

section Memory

variable (s : Ambient × Transactions)

/-- An update in memory: the first match moves where the transition validates. -/
theorem memory_update (args : UpdateTransactionStatus) :
    let r := InMemoryTransactionRepository.answer env (.updateTransactionStatus args) s
    (firstMatch args.checkoutRequestId s.2 = none ∧ r = (.ok none, s)) ∨
    (∃ t e, firstMatch args.checkoutRequestId s.2 = some t ∧
      validateTransition t.status args.status = .error e ∧ r = (.error e, s)) ∨
    (∃ t status, firstMatch args.checkoutRequestId s.2 = some t ∧
      validateTransition t.status args.status = .ok status ∧
      r = (.ok (some (args.apply t status (s.1.now env).1)),
        (s.1.now env).2, s.2.put (args.apply t status (s.1.now env).1))) := by
  simp only [firstMatch, InMemoryTransactionRepository.answer,
    InMemoryTransactionRepository.updateTransactionStatus]
  cases hfound : InMemoryTransactionRepository.findByCheckoutRequestId args.checkoutRequestId s.2 with
  | none => exact Or.inl ⟨rfl, rfl⟩
  | some t =>
    cases hvalid : validateTransition t.status args.status with
    | error e => exact Or.inr (Or.inl ⟨t, e, rfl, hvalid, by simp only [hvalid]⟩)
    | ok status => exact Or.inr (Or.inr ⟨t, status, rfl, hvalid, by simp only [hvalid]⟩)

/-- The update of an accepted callback succeeds in memory. -/
theorem memory_updateAnswer {f : CallbackFields} {t : PendingTransaction}
    (found : firstMatch f.checkoutRequestId s.2 = some t) (pending : t.status = .pending) :
    updateAnswer env InMemoryTransactionRepository f s =
      (.ok (some ((f.update env.toRuntime).apply t (targetStatus f.resultCode) (s.1.now env).1)),
        (s.1.now env).2,
        s.2.put ((f.update env.toRuntime).apply t (targetStatus f.resultCode) (s.1.now env).1)) := by
  have hok : validateTransition t.status (f.update env.toRuntime).status =
      .ok (targetStatus f.resultCode) :=
    validateTransition_ok_iff.mpr ⟨pending, terminal_targetStatus f.resultCode, rfl⟩
  rcases memory_update env s (f.update env.toRuntime) with
    ⟨hnone, -⟩ | ⟨t', e, hsome, herror, -⟩ | ⟨t', status, hsome, hok', hr⟩
  · cases hnone.symm.trans found
  · cases hsome.symm.trans found
    rw [hok] at herror
    cases herror
  · cases hsome.symm.trans found
    rw [hok] at hok'
    cases hok'
    exact hr

end Memory

/-! ## The operations that write transactions -/

/-- A callback in memory is refused and changes nothing, or moves the transaction it matches. Which of
the two is read off the fields, the first match and whether they agree. -/
theorem memory_process (payload : PyDict) (w : World Transactions π) :
    let r := Prog.run (handle env (.inMemory settings verifier provider))
      (process env.toRuntime payload) w
    (Unapplied r.1 ∧ r.2.transactions = w.transactions ∧
      ∀ f t, readFields env.toRuntime payload = .ok (some f) →
        firstMatch f.checkoutRequestId w.transactions = some t → ¬ f.Accepts env.toRuntime t) ∨
    ∃ f t, readFields env.toRuntime payload = .ok (some f) ∧
      firstMatch f.checkoutRequestId w.transactions = some t ∧ f.Accepts env.toRuntime t ∧
      AppliedAs f r.1 ∧
      r.2.transactions = w.transactions.put
        ((f.update env.toRuntime).apply t (targetStatus f.resultCode) (w.ambient.now env).1) := by
  intro r
  have hfind : ∀ f, lookupAnswer env InMemoryTransactionRepository f w.store =
    (.ok (firstMatch f.checkoutRequestId w.transactions), w.store) := fun _ => rfl
  cases process_cases env (.inMemory settings verifier provider) payload w with
  | unread unread unapplied after =>
    exact Or.inl ⟨unapplied, congrArg Prod.snd after, fun f _ read => absurd read (unread f)⟩
  | unmatched f read unmatched unapplied after =>
    refine Or.inl ⟨unapplied, congrArg Prod.snd after, fun g t read' found => ?_⟩
    cases read.symm.trans read'
    exact absurd (congrArg Except.ok found) (unmatched t)
  | refused f read t found refuses unapplied after =>
    refine Or.inl ⟨unapplied, congrArg Prod.snd after, fun g u read' found' => ?_⟩
    cases read.symm.trans read'
    cases (Except.ok.inj found : firstMatch f.checkoutRequestId w.transactions = _).symm.trans found'
    exact refuses
  | updated f read t found accepts applied raised after =>
    have hmatch : firstMatch f.checkoutRequestId w.transactions = some t := Except.ok.inj found
    have hupdate := memory_updateAnswer env w.store hmatch accepts.pending
    have hafter : r.2.store = (updateAnswer env InMemoryTransactionRepository f w.store).2 := after
    refine Or.inr ⟨f, t, read, hmatch, accepts, applied _ (congrArg Prod.fst hupdate), ?_⟩
    rw [hupdate] at hafter
    exact congrArg Prod.snd hafter

/-- A push in memory stores at most one pending record, under an id it draws, and never raises. -/
theorem memory_push (request : InitiatePayment) (idempotencyKey : String) (w : World Transactions π) :
    let r := Prog.run (handle env (.inMemory settings verifier provider))
      (PaymentService.executeStkPush request idempotencyKey) w
    (∃ response, r.1 = .ok response) ∧
    (r.2.transactions = w.transactions ∨ ∃ args k createdAt updatedAt,
      w.ambient.uuidDraws ≤ k ∧ k < r.2.ambient.uuidDraws ∧
      r.2.transactions = w.transactions.put
        (SavePendingTransaction.record args (env.uuid4 k) createdAt updatedAt)) := by
  intro r
  cases push_cases env (.inMemory settings verifier provider) request idempotencyKey w with
  | unread e failed => cases failed
  | existing t _ answer after => exact ⟨⟨_, answer⟩, Or.inl (congrArg World.transactions after)⟩
  | declined e _ w₁ raised answer after =>
    have hsame := (pushAnswer_spares env _ raised).1
    exact ⟨⟨_, answer⟩, Or.inl ((congrArg World.transactions after).trans hsame)⟩
  | lost response _ w₁ _ e s failed => cases failed
  | recorded response _ w₁ answered t s saved answer after =>
    obtain ⟨hsame, hforward⟩ := pushAnswer_spares env _ answered
    have hdraws : w.ambient.uuidDraws ≤ w₁.ambient.uuidDraws := hforward.uuidDraws
    obtain ⟨events, hafter⟩ := after
    have hr : r.2.ambient = s.1 ∧ r.2.transactions = s.2 :=
      ⟨congrArg World.ambient hafter, congrArg World.transactions hafter⟩
    have hsame' : w₁.transactions = w.transactions := hsame
    cases saved
    refine ⟨⟨_, answer⟩, Or.inr ⟨PaymentService.saveArguments request idempotencyKey response,
      w₁.ambient.uuidDraws, env.clock w₁.ambient.clockReads,
      env.clock (w₁.ambient.clockReads + 1), hdraws, ?_, hr.2.trans ?_⟩⟩
    · rw [hr.1]
      exact Nat.lt_succ_self _
    · rw [← hsame']

/-! ## The operations that write none -/

/-- A message that writes no transaction. -/
def Msg.SparesTransactions : Msg → Prop
  | .transactions (.savePendingTransaction _) => False
  | .transactions (.updateTransactionStatus _) => False
  | _ => True

theorem Msg.OfApprovals.sparesTransactions {m : Msg} (h : m.OfApprovals) : m.SparesTransactions := by
  cases m with
  | transactions m => exact absurd h id
  | _ => trivial

theorem Msg.OfReading.sparesTransactions {m : Msg} (h : m.OfReading) : m.SparesTransactions := by
  cases m with
  | transactions m => cases m <;> trivial
  | _ => trivial

/-- A message that writes no transaction leaves the store in memory as it is. -/
theorem memory_handle {m : Msg} (h : m.SparesTransactions) (w : World Transactions π) :
    (handle env (.inMemory settings verifier provider) m w).2.transactions = w.transactions := by
  cases m with
  | transactions m => cases m <;> first | rfl | exact absurd h id
  | provider m => cases m <;> rfl
  | _ => rfl

/-- A reply without a processing result applies no callback. -/
theorem quiet_map {α : Type} {f : α → Reply} (hf : ∀ a, (f a).processing? = none)
    (x : Except Exn α) (id : String) : ¬ Applies id (x.map f) := by
  rintro ⟨reply, result, hout, hresult, -⟩
  cases x with
  | error e => cases hout
  | ok a =>
    cases hout
    rw [hf a] at hresult
    cases hresult

/-- An operation whose program writes no transaction. -/
theorem StoreCase.of_spared {α : Type} {p : App α} {f : α → Reply}
    (sends : p.Sends Msg.SparesTransactions) (hf : ∀ a, (f a).processing? = none)
    (w : World Transactions π) :
    let r := Prog.run (handle env (.inMemory settings verifier provider)) (f <$> p) w
    StoreCase env w r.1 r.2 := by
  intro r
  have hr : r = _ := Prog.run_map _ f p w
  rw [hr]
  exact .same (run_keeps env _ World.transactions
    (fun _ hm => memory_handle env settings verifier provider hm) sends w) (quiet_map hf _)

/-! ## Every operation -/

/-- A reply with a processing result refuses exactly where the callback was not applied. -/
theorem Reply.refuses_iff {reply : Reply} {result : CallbackProcessingResult}
    (h : reply.processing? = some result) : reply.Refuses ↔ ¬ result.status.Applied := by
  cases reply with
  | processed r => cases h; exact Iff.rfl
  | callback response =>
    cases response with
    | processed r => cases h; exact Iff.rfl
    | _ => cases h
  | _ => cases h

/-- An operation that runs the handler and reports its result does to the store what the handler does;
what it did before left the transactions alone. -/
theorem StoreCase.of_process (payload : PyDict) {w w₁ w' : World Transactions π}
    {output : Except Exn Reply} (start : w₁.transactions = w.transactions)
    (stop : w'.transactions = (Prog.run (handle env (.inMemory settings verifier provider))
      (process env.toRuntime payload) w₁).2.transactions)
    (reports : ∀ result, (Prog.run (handle env (.inMemory settings verifier provider))
      (process env.toRuntime payload) w₁).1 = .ok result ↔
        ∃ reply, output = .ok reply ∧ reply.processing? = some result) :
    StoreCase env w output w' := by
  rcases memory_process env settings verifier provider payload w₁ with
    ⟨unapplied, same, -⟩ | ⟨f, t, read, found, accepts, applied, put⟩
  · refine .same (stop.trans (same.trans start)) fun id happlies => ?_
    obtain ⟨reply, result, hout, hresult, hstatus, -⟩ := happlies
    rw [(reports result).mpr ⟨reply, hout, hresult⟩] at unapplied
    exact unapplied hstatus
  · obtain ⟨result, hrun, hstatus, hid⟩ := applied
    obtain ⟨reply, hout, hresult⟩ := (reports result).mp hrun
    rw [start] at found put
    refine .moved (f.update env.toRuntime) t found accepts.pending _ (terminal_targetStatus _) _
      (stop.trans put) ?_ fun id happlies => ?_
    · rw [hout]
      exact fun hrefused => (Reply.refuses_iff hresult).mp hrefused
        (hstatus ▸ applied_targetOutcome f.resultCode)
    · obtain ⟨reply', result', hout', hresult', -, hid'⟩ := happlies
      cases hout.symm.trans hout'
      cases hresult.symm.trans hresult'
      exact Option.some.inj (hid'.symm.trans hid)

/-- The handler moves the transaction its lookup found, or leaves the store as it was and says so. -/
theorem store_process (payload : PyDict) (w : World Transactions π) :
    let r := step env (.inMemory settings verifier provider) (.process payload) w
    StoreCase env w r.1 r.2 := by
  intro r
  have hr : r = _ := Prog.run_map _ Reply.processed (process env.toRuntime payload) w
  refine .of_process env settings verifier provider payload rfl ?_ fun result => ?_
  · rw [hr]
  · rw [hr]
    cases (Prog.run (handle env (.inMemory settings verifier provider))
      (process env.toRuntime payload) w).1 with
    | error e => simp [Except.map]
    | ok result' => simp [Except.map, Reply.processing?]

/-- The route stops a delivery before the handler, or runs it: its checks write no transaction. -/
theorem store_postCallback (request : CallbackRequest) (w : World Transactions π) :
    let r := step env (.inMemory settings verifier provider) (.postCallback request) w
    StoreCase env w r.1 r.2 := by
  intro r
  have hr : r = _ := Prog.run_map _ Reply.callback
    (CallbackRoute.post env.toRuntime
      (AppContainer.inMemory settings verifier provider).callbackRoute request) w
  -- a delivery that does not reach the handler reports nothing and writes nothing
  have unprocessed : ∀ {answer : Except Exn CallbackResponse} {w' : World Transactions π},
      w'.transactions = w.transactions → (∀ result, answer ≠ .ok (.processed result)) →
      StoreCase env w (answer.map .callback) w' := by
    intro answer w' same hun
    refine .same same fun id happlies => ?_
    obtain ⟨reply, result, hout, hresult, -⟩ := happlies
    cases answer with
    | error e => cases hout
    | ok response =>
      cases hout
      cases response with
      | processed result' => exact hun result' rfl
      | _ => cases hresult
  have hcase := delivery_cases env (.inMemory settings verifier provider) request w
  rw [hr]
  cases hcase with
  | rejected _ answer after =>
    obtain ⟨events, hafter⟩ := after
    refine unprocessed (by rw [hafter]) fun result => ?_
    rcases answer with answer | ⟨reason, answer⟩ | ⟨e, answer⟩ <;> simp [answer]
  | duplicate _ _ answer after =>
    obtain ⟨events, hafter⟩ := after
    exact unprocessed (by rw [hafter]) (by simp [answer])
  | delivered _ _ ran =>
    obtain ⟨hstore, -, hanswer⟩ := run_processCallback env (.inMemory settings verifier provider)
      request.payload (w.admitted env (.inMemory settings verifier provider) request.payload)
    rw [ran] at hstore hanswer
    refine .of_process env settings verifier provider _ (World.admitted_transactions _ _ _ w)
      (congrArg Prod.snd hstore) fun result => ?_
    rw [← hanswer result]
    generalize (Prog.run _ _ w).1 = output
    cases output with
    | error e => simp [Except.map]
    | ok response =>
      cases response with
      | _ => simp [Except.map, Reply.processing?]

/-- The operations that pay store what `memory_push` stores. -/
theorem StoreCase.of_push {w w₁ w' : World Transactions π} {output : Except Exn Reply}
    (start : w₁.transactions = w.transactions) (forward : w.ambient.Forward w₁.ambient)
    (stop : w'.transactions = w₁.transactions ∨ ∃ args k createdAt updatedAt,
      w₁.ambient.uuidDraws ≤ k ∧ k < w'.ambient.uuidDraws ∧
      w'.transactions = w₁.transactions.put
        (SavePendingTransaction.record args (env.uuid4 k) createdAt updatedAt))
    (accepted : ¬ Refused output) (quiet : ∀ id, ¬ Applies id output) :
    StoreCase env w output w' := by
  rcases stop with same | ⟨args, k, createdAt, updatedAt, hlow, hhigh, put⟩
  · exact .same (same.trans start) quiet
  · exact .saved args k ⟨forward.uuidDraws.trans hlow, hhigh⟩ createdAt updatedAt
      (start ▸ put) accepted quiet

/-- An initiation saves the push the provider accepted, under an id just drawn, or nothing. -/
theorem store_initiateStkPush (args : InitiateStkPush) (w : World Transactions π) :
    let r := step env (.inMemory settings verifier provider) (.initiateStkPush args) w
    StoreCase env w r.1 r.2 := by
  intro r
  obtain ⟨output, w', hrun, hcase⟩ := initiation_cases env (.inMemory settings verifier provider)
    args w
  have hr : r = (output.map .payment, w') := by
    simp only [r, step, program, Prog.run_map, hrun]
  rw [hr]
  have quiet := quiet_map (f := Reply.payment) (fun _ => rfl) output
  cases hcase with
  | quiet _ idle => exact .same idle.1 quiet
  | filed _ _ _ _ _ _ _ _ _ _ idle => exact .same idle.1 quiet
  | paid request _ _ _ ran =>
    obtain ⟨⟨response, hout⟩, hstop⟩ := memory_push env settings verifier provider request
      (PaymentService.keyFor env.toRuntime args request) w
    rw [ran] at hout hstop
    refine .of_push env rfl (.refl _) hstop ?_ quiet
    cases hout
    exact id

/-- A payment behind an approval, like a push. -/
theorem memory_executeApprovedStkPush (payload : PyDict) (w : World Transactions π) :
    let r := Prog.run (handle env (.inMemory settings verifier provider))
      (PaymentService.executeApprovedStkPush payload) w
    (∃ response, r.1 = .ok response) ∧
    (r.2.transactions = w.transactions ∨ ∃ args k createdAt updatedAt,
      w.ambient.uuidDraws ≤ k ∧ k < r.2.ambient.uuidDraws ∧
      r.2.transactions = w.transactions.put
        (SavePendingTransaction.record args (env.uuid4 k) createdAt updatedAt)) := by
  unfold PaymentService.executeApprovedStkPush
  split
  · exact ⟨⟨_, rfl⟩, Or.inl rfl⟩
  · exact memory_push env settings verifier provider _ _ w

/-- An execution saves as an initiation does, once the review has approved. -/
theorem store_executeApprovedPayment (approvalId operatorId : String) (w : World Transactions π) :
    let r := step env (.inMemory settings verifier provider)
      (.executeApprovedPayment approvalId operatorId) w
    StoreCase env w r.1 r.2 := by
  intro r
  obtain ⟨output, w', hrun, hcase⟩ := execution_cases env (.inMemory settings verifier provider)
    approvalId operatorId w
  have hr : r = (output.map .execution, w') := by
    simp only [r, step, program, Prog.run_map, hrun]
  rw [hr]
  have quiet := quiet_map (f := Reply.execution) (fun _ => rfl) output
  cases hcase with
  | absent _ _ _ idle => exact .same idle.1 quiet
  | expired _ _ _ _ _ idle => exact .same idle.1 quiet
  | refused _ _ _ _ _ idle => exact .same idle.1 quiet
  | reviewed _ _ _ _ _ _ _ _ idle => exact .same idle.1 quiet
  | approved a _ _ _ _ _ w₁ _ _ idle paid _ raised forward =>
    obtain ⟨⟨response, hout⟩, hstop⟩ := memory_executeApprovedStkPush env settings verifier provider
      a.payload w₁
    rw [← paid] at hstop
    refine .of_push env idle.1 forward hstop ?_ quiet
    cases output with
    | error e => cases hout.symm.trans (raised e rfl)
    | ok execution => exact id

/-- A direct save stores a pending record under an id just drawn, whatever its fields. -/
theorem store_savePendingTransaction (args : SavePendingTransaction) (w : World Transactions π) :
    let r := step env (.inMemory settings verifier provider) (.savePendingTransaction args) w
    StoreCase env w r.1 r.2 := by
  intro r
  refine .saved args w.ambient.uuidDraws ⟨Nat.le_refl _, Nat.lt_succ_self _⟩
    (env.clock w.ambient.clockReads) (env.clock (w.ambient.clockReads + 1)) rfl ?_ ?_
  · exact id
  · rintro id ⟨reply, result, hout, hresult, -⟩
    cases hout
    cases hresult

/-- A direct update moves the first match where the transition validates; otherwise it raises, or
answers that there is none. -/
theorem store_updateTransactionStatus (args : UpdateTransactionStatus) (w : World Transactions π) :
    let r := step env (.inMemory settings verifier provider) (.updateTransactionStatus args) w
    StoreCase env w r.1 r.2 := by
  intro r
  have hr : r = ((InMemoryTransactionRepository.answer env (.updateTransactionStatus args)
      w.store).1.map .updated, w.withStore (InMemoryTransactionRepository.answer env
        (.updateTransactionStatus args) w.store).2) := by
    simp only [r, step, program, Prog.run_map, run_ask, handle_transactions]
    rfl
  have quiet := quiet_map (f := Reply.updated) (fun _ => rfl)
    (InMemoryTransactionRepository.answer env (.updateTransactionStatus args) w.store).1
  rw [hr]
  rcases memory_update env w.store args with
    ⟨-, hanswer⟩ | ⟨t, e, -, -, hanswer⟩ | ⟨t, status, found, hvalid, hanswer⟩
  · exact .same (by rw [hanswer]; rfl) quiet
  · exact .same (by rw [hanswer]; rfl) quiet
  · obtain ⟨hpending, hterminal, -⟩ := validateTransition_ok_iff.mp hvalid
    refine .moved args t found hpending status hterminal (w.ambient.now env).1
      (by rw [hanswer]; rfl) ?_ fun id h => absurd h (quiet id)
    rw [hanswer]
    exact id

/-- **The inversion lemma of `step`** for the transactions of the in-memory repository: nothing
changes, one record is saved, or one moves. The properties of whole runs are derived from these cases. -/
theorem store_cases (op : Op) (w : World Transactions π) :
    let r := step env (.inMemory settings verifier provider) op w
    StoreCase env w r.1 r.2 := by
  have reviewing : ∀ {α : Type} {p : App α} {f : α → Reply}, p.Sends Msg.OfApprovals →
      (∀ a, (f a).processing? = none) → _ := fun {_ p f} sends hf =>
    StoreCase.of_spared env settings verifier provider (p := p) (f := f)
      (sends.mono fun _ => Msg.OfApprovals.sparesTransactions) hf w
  have reading : ∀ {α : Type} {p : App α} {f : α → Reply}, p.Sends Msg.OfReading →
      (∀ a, (f a).processing? = none) → _ := fun {_ p f} sends hf =>
    StoreCase.of_spared env settings verifier provider (p := p) (f := f)
      (sends.mono fun _ => Msg.OfReading.sparesTransactions) hf w
  cases op with
  | initiateStkPush args => exact store_initiateStkPush env settings verifier provider args w
  | executeApprovedPayment approvalId operatorId =>
    exact store_executeApprovedPayment env settings verifier provider approvalId operatorId w
  | approveRequest approvalId operatorId =>
    exact reviewing (ApprovalService.sends_approveRequest _ _) fun _ => rfl
  | rejectRequest approvalId =>
    exact reviewing (ApprovalService.sends_rejectRequest _) fun _ => rfl
  | expireStaleApprovals =>
    exact reviewing ApprovalService.sends_expireStaleApprovals fun _ => rfl
  | listPendingRequests =>
    exact reviewing ApprovalService.sends_listPendingRequests fun _ => rfl
  | savePendingTransaction args =>
    exact store_savePendingTransaction env settings verifier provider args w
  | updateTransactionStatus args =>
    exact store_updateTransactionStatus env settings verifier provider args w
  | process payload => exact store_process env settings verifier provider payload w
  | postCallback request => exact store_postCallback env settings verifier provider request w
  | generateReceipt checkoutRequestId =>
    exact reading (ReceiptService.sends_generateReceipt checkoutRequestId) fun _ => rfl
  | generateReceiptByReference reference =>
    exact reading (ReceiptService.sends_generateReceiptByReference reference) fun _ => rfl
  | getTodaySummary => exact reading AnalyticsService.sends_getTodaySummary fun _ => rfl
  | getFailedTransactions =>
    exact reading AnalyticsService.sends_getFailedTransactions fun _ => rfl
  | runReconciliation =>
    exact reading (ReconciliationService.sends_runReconciliation _) fun _ => rfl

end MpesaMcp
