import MpesaMcp.Laws.Executions
import MpesaMcp.Laws.TransactionLifecycle

/-!
# One transaction for one idempotency key

Over the in-memory repository. `push_memory` says what one push does to the stores and what it answers.
Whoever pays under a key, directly or through an approval, asks the repository for the key first
(`Reaches`); so the stored transactions keep distinct keys, and the one a provider response was stored
in is what every later payment under its key is answered with (`one_payment_per_key`).
-/

set_option autoImplicit false

namespace MpesaMcp

open Library Python PaymentService

/-! ## One push in memory -/

/-- The event about a stored push. -/
def initiationEvent (t : PendingTransaction) (response : PaymentInitiationResponse) : AuditEvent where
  eventType := "stk_push_initiated"
  payload := [
    ("transaction_id", .str t.transactionId),
    ("amount", .int t.amount),
    ("phone_number", .str t.phoneNumber),
    ("idempotency_key", optionalText t.idempotencyKey),
    ("checkout_request_id", .str response.checkoutRequestId),
    ("merchant_request_id", .str response.merchantRequestId)]

section Memory

variable {π : Type} (env : Env) (settings : Settings) (verifier : CallbackSourceVerifier)
  (provider : PaymentProvider π)

/-- What a push does to the transactions, the record of calls, the events and the counters, and what it
answers. -/
inductive MemoryPush (request : InitiatePayment) (idempotencyKey : String) (w : World Transactions π)
    (output : Except Exn PaymentResponse) (w' : World Transactions π) : Prop
  | existing (t : PendingTransaction) (found : keyMatch idempotencyKey w.transactions = some t)
      (answer : output = .ok (responseFromExistingTransaction t)) (after : w' = w)
  | declined (missing : keyMatch idempotencyKey w.transactions = none) (e : Exn)
      (answer : output = .ok (providerFailure e)) (transactions : w'.transactions = w.transactions)
      (events : w'.auditEvents = w.auditEvents)
      (metrics : w'.metrics = w.metrics.increment .failedPayment) (call : Initiation)
      (refused : call.result = .error e) (calls : w'.initiations = w.initiations ++ [call])
  | recorded (missing : keyMatch idempotencyKey w.transactions = none)
      (response : PaymentInitiationResponse) (t : PendingTransaction) (k : Nat)
      (drawn : w.ambient.uuidDraws ≤ k ∧ k < w'.ambient.uuidDraws) (createdAt updatedAt : Datetime)
      (record : t = (saveArguments request idempotencyKey response).record (env.uuid4 k) createdAt
        updatedAt)
      (answer : output = .ok (initiated t idempotencyKey response))
      (put : w'.transactions = w.transactions.put t)
      (events : w'.auditEvents = w.auditEvents ++ [initiationEvent t response])
      (metrics : w'.metrics = w.metrics.increment .successfulPayment) (call : Initiation)
      (accepted : call.result = .ok response) (calls : w'.initiations = w.initiations ++ [call])

/-- A push in memory never raises, and does what one of the cases says. -/
theorem push_memory (request : InitiatePayment) (idempotencyKey : String) (w : World Transactions π) :
    let r := Prog.run (handle env (.inMemory settings verifier provider))
      (executeStkPush request idempotencyKey) w
    MemoryPush env request idempotencyKey w r.1 r.2 := by
  intro r
  have hr : r = Prog.run (handle env (.inMemory settings verifier provider))
    (executeStkPush request idempotencyKey) w := rfl
  have hlookup : handle env (.inMemory settings verifier provider)
      (.transactions (.findByIdempotencyKey idempotencyKey)) w =
        (.ok (keyMatch idempotencyKey w.transactions), w) := rfl
  simp only [executeStkPush, Prog.run_bind, run_ask, hlookup] at hr
  cases hfound : keyMatch idempotencyKey w.transactions with
  | some t =>
    rw [hfound] at hr
    rw [hr]
    exact .existing t hfound rfl rfl
  | none =>
    rw [hfound] at hr
    have hforward := handle_forward env (.inMemory settings verifier provider)
      (.provider (.initiatePayment request)) w
    obtain ⟨hsame, hevents, hmetrics⟩ : let w₁ := (handle env (.inMemory settings verifier provider)
          (.provider (.initiatePayment request)) w).2
        w₁.transactions = w.transactions ∧ w₁.auditEvents = w.auditEvents ∧ w₁.metrics = w.metrics :=
      ⟨rfl, rfl, rfl⟩
    obtain ⟨call, hcall, hcalls⟩ : ∃ call : Initiation,
        call.result = (handle env (.inMemory settings verifier provider)
          (.provider (.initiatePayment request)) w).1 ∧
        (handle env (.inMemory settings verifier provider)
          (.provider (.initiatePayment request)) w).2.initiations = w.initiations ++ [call] :=
      ⟨_, rfl, rfl⟩
    simp only [Prog.run_bind, Prog.run_attempt, run_ask] at hr
    cases hpush : handle env (.inMemory settings verifier provider)
        (.provider (.initiatePayment request)) w with
    | mk answer w₁ =>
    simp only [hpush] at hr hforward hsame hevents hmetrics hcall hcalls
    cases answer with
    | error e =>
      rw [hr]
      refine .declined hfound e rfl hsame hevents ?_ call hcall hcalls
      exact congrArg (MetricsSnapshot.increment · .failedPayment) hmetrics
    | ok response =>
      simp only [recordInitiation, Prog.run_bind, run_ask] at hr
      rw [hr]
      refine .recorded hfound response _ w₁.ambient.uuidDraws
        ⟨hforward.uuidDraws, Nat.lt_succ_self _⟩ _ _ rfl rfl ?_ ?_ ?_ call hcall hcalls
      · exact congrArg (Keyed.put · _) hsame
      · exact congrArg (· ++ _) hevents
      · exact congrArg (MetricsSnapshot.increment · .successfulPayment) hmetrics

end Memory

/-! ## The property -/

section Property

variable {π : Type} (env : Env) (container : AppContainer Transactions π)

/-- The step reaches `_execute_stk_push` with this key: it asks the repository for it. -/
def Reaches (idempotencyKey : String) (st : AppStep Transactions π) : Prop :=
  ¬ (program container env.toRuntime st.input).Observes (handle env container)
    (fun m _ => m ≠ .transactions (.findByIdempotencyKey idempotencyKey)) st.before

/-- No two stored transactions carry one key. -/
def DistinctKeys (transactions : Transactions) : Prop :=
  ∀ idempotencyKey, ∀ t ∈ transactions.values, ∀ u ∈ transactions.values,
    t.idempotencyKey = some idempotencyKey → u.idempotencyKey = some idempotencyKey → t = u

/-- The reply names this transaction, with its ids at the provider and its status. -/
def Names (t : PendingTransaction) (output : Except Exn Reply) : Prop :=
  ∃ reply response, output = .ok reply ∧ reply.payment? = some response ∧
    response.transactionId = some t.transactionId ∧
    response.checkoutRequestId = some t.checkoutRequestId ∧
    response.merchantRequestId = some t.merchantRequestId ∧
    response.status = .transaction t.status

/-- A provider response for the key was returned in this step. -/
def Responds (idempotencyKey : String) (st : AppStep Transactions π) : Prop :=
  Reaches env container idempotencyKey st ∧
    ∃ call ∈ calls st, ∃ response, call.result = .ok response

/-- One transaction for each key of a run: the stored keys are distinct, whoever calls the provider
reached `_execute_stk_push`, and once the provider has responded for a key, every later step that
reaches it calls nobody and names the transaction the response was stored in, as it is by then. -/
structure OnePayment (run : List (AppStep Transactions π)) : Prop where
  distinct : ∀ st ∈ run, DistinctKeys st.after.transactions
  called : ∀ st ∈ run, calls st ≠ [] → ∃ idempotencyKey, Reaches env container idempotencyKey st
  settled : ∀ history st later idempotencyKey, run = history ++ st :: later →
    Responds env container idempotencyKey st →
    ∃ t, t.idempotencyKey = some idempotencyKey ∧ Names t st.output ∧
      ∀ next ∈ later, Reaches env container idempotencyKey next → calls next = [] ∧
        ∃ u, next.before.transactions.get t.transactionId = some u ∧ SameIdentity t u ∧
          Names u next.output

end Property

/-! ## Keys -/

theorem DistinctKeys.paired {d d' : Transactions} (h : DistinctKeys d)
    (paired : d.Paired SameIdentity d') : DistinctKeys d' := by
  intro idempotencyKey t ht u hu htkey hukey
  obtain ⟨t₀, ht₀, htt⟩ := (forall₂_mem paired).2 t ht
  obtain ⟨u₀, hu₀, huu⟩ := (forall₂_mem paired).2 u hu
  have hsame := h idempotencyKey t₀ ht₀ u₀ hu₀ (htt.idempotencyKey.symm.trans htkey)
    (huu.idempotencyKey.symm.trans hukey)
  refine d'.eq_of_key_eq ht hu ?_
  rw [htt.transactionId, huu.transactionId, hsame]

/-- A transaction under a key that was missing. -/
theorem DistinctKeys.put {d : Transactions} (h : DistinctKeys d) {t : PendingTransaction}
    {idempotencyKey : String} (key : t.idempotencyKey = some idempotencyKey)
    (missing : keyMatch idempotencyKey d = none) : DistinctKeys (d.put t) := by
  have hmissing : ∀ u ∈ d.values, u.idempotencyKey ≠ some idempotencyKey :=
    fun u hu hkey => keyMatch_eq_none.mp missing ⟨u, hu, hkey⟩
  intro other u hu v hv hukey hvkey
  rcases Keyed.mem_values_put.mp hu with hut | ⟨hu, -⟩ <;>
    rcases Keyed.mem_values_put.mp hv with hvt | ⟨hv, -⟩
  · rw [hut, hvt]
  · rw [hut, key] at hukey
    exact absurd (hvkey.trans hukey.symm) (hmissing v hv)
  · rw [hvt, key] at hvkey
    exact absurd (hukey.trans hvkey.symm) (hmissing u hu)
  · exact h other u hu v hv hukey hvkey

/-- A stored transaction is the one its key finds. -/
theorem DistinctKeys.keyMatch {d : Transactions} (h : DistinctKeys d) {t : PendingTransaction}
    (ht : t ∈ d.values) {idempotencyKey : String} (key : t.idempotencyKey = some idempotencyKey) :
    MpesaMcp.keyMatch idempotencyKey d = some t := by
  cases hfound : MpesaMcp.keyMatch idempotencyKey d with
  | none => exact absurd ⟨t, ht, key⟩ (keyMatch_eq_none.mp hfound)
  | some u =>
    have hu : u.idempotencyKey = some idempotencyKey := by simpa using List.find?_some hfound
    rw [h idempotencyKey u (List.mem_of_find?_eq_some hfound) t ht hu key]

/-! ## One step -/

section Step

variable {π : Type} {env : Env} {settings : Settings} {verifier : CallbackSourceVerifier}
  {provider : PaymentProvider π}

/-- The messages of a run that is no push keep every transaction in its place. -/
theorem silent_paired {op : Op} {w : World Transactions π}
    (observed : (program (.inMemory settings verifier provider) env.toRuntime op).Observes
      (handle env (.inMemory settings verifier provider)) (fun m _ => m.SparesPush) w) :
    let w' := (step env (.inMemory settings verifier provider) op w).2
    w.transactions.Paired SameIdentity w'.transactions ∧ w'.initiations = w.initiations := by
  refine ⟨?_, ?_⟩
  · refine Prog.Observes.related (R := fun w w' : World Transactions π =>
      w.transactions.Paired SameIdentity w'.transactions) (fun w => .refl SameIdentity.refl _)
      (fun _ _ _ h h' => forall₂_trans (R := SameIdentity) (fun _ _ _ => SameIdentity.trans) h h')
      (fun m hm w => ?_) observed
    cases m with
    | transactions m =>
      exact InMemoryTransactionRepository.rowStore.keeps env m w.ambient w.transactions
        fun args h => by
          subst h
          exact hm
    | provider m => cases m <;> exact .refl SameIdentity.refl _
    | _ => exact .refl SameIdentity.refl _
  · refine Prog.Observes.related (h := handle env (.inMemory settings verifier provider))
      (R := fun w w' => w'.initiations = w.initiations) (fun _ => rfl) (fun _ _ _ h h' => h'.trans h)
      (fun m hm w =>
        handle_initiations env (.inMemory settings verifier provider) ?_ w) observed
    cases m with
    | provider m => cases m <;> trivial
    | _ => trivial

/-- A push asks for its own key only. -/
theorem sends_executeStkPush_key (request : InitiatePayment) {key other : String} (h : key ≠ other) :
    (executeStkPush request key).Sends
      fun m => m ≠ .transactions (.findByIdempotencyKey other) := by
  refine .bind ((sends_ask _).mpr ?_) fun existing => ?_
  · intro he
    injection he with he
    injection he with he
    exact h he
  cases existing with
  | some t => trivial
  | none =>
    refine .bind (Prog.Sends.attempt ((sends_ask _).mpr nofun)) fun response => ?_
    cases response with
    | error e => exact .bind ((sends_ask _).mpr nofun) fun _ => trivial
    | ok response =>
      exact .bind ((sends_ask _).mpr nofun) fun _ => .bind ((sends_ask _).mpr nofun) fun _ =>
        .bind ((sends_ask _).mpr nofun) fun _ => trivial

/-- What an operation does that saves nothing directly: it leaves the stored transactions in their
places and calls nobody, or it is one push, under the one key it reaches. -/
inductive MemoryStep (env : Env) (settings : Settings) (verifier : CallbackSourceVerifier)
    (provider : PaymentProvider π) (op : Op) (w : World Transactions π) (output : Except Exn Reply)
    (w' : World Transactions π) : Prop
  | silent (paired : w.transactions.Paired SameIdentity w'.transactions)
      (idle : w'.initiations = w.initiations)
      (reaches : ∀ idempotencyKey, ¬ Reaches env (.inMemory settings verifier provider) idempotencyKey
        ⟨w, op, output, w'⟩)
  | pushes (idempotencyKey : String)
      (reaches : ∀ other, Reaches env (.inMemory settings verifier provider) other
        ⟨w, op, output, w'⟩ ↔ other = idempotencyKey)
      (request : InitiatePayment) (w₁ : World Transactions π) (idle : w.Idle w₁)
      (forward : w.ambient.Forward w₁.ambient) (answer : Except Exn PaymentResponse)
      (wrap : PaymentResponse → Reply) (payment : ∀ response, (wrap response).payment? = some response)
      (answered : output = answer.map wrap)
      (push : MemoryPush env request idempotencyKey w₁ answer w')

theorem memory_step {op : Op} (indirect : ∀ args, op ≠ .savePendingTransaction args)
    (w : World Transactions π) :
    let r := step env (.inMemory settings verifier provider) op w
    MemoryStep env settings verifier provider op w r.1 r.2 := by
  intro r
  cases execution_of env (.inMemory settings verifier provider) op indirect w with
  | silent observed =>
    obtain ⟨hpaired, hidle⟩ := silent_paired observed
    refine .silent hpaired hidle fun idempotencyKey hreaches => hreaches ?_
    refine observed.mono fun m _ hm he => ?_
    rw [he] at hm
    exact hm
  | pushes request key _ w₁ idle forward wrap payment answer after behind within =>
    have hpush := push_memory env settings verifier provider request key w₁
    dsimp only at hpush
    rw [← after] at hpush
    refine .pushes key (fun other => ⟨fun hreaches => ?_, fun he hobserved => ?_⟩) request w₁ idle
      forward _ wrap payment answer hpush
    · by_contra hkey
      refine hreaches (behind _ (fun m _ hm he => ?_)
        ((sends_executeStkPush_key request (Ne.symm hkey)).observes (fun _ _ h => h) w₁))
      rw [he] at hm
      exact hm
    · subst he
      exact (within _ hobserved).1 rfl

/-! ## Runs -/

/-- The stored keys are distinct, and the identifiers were drawn. -/
structure KeysSettled (env : Env) (w : World Transactions π) : Prop where
  distinct : DistinctKeys w.transactions
  issued : RowsIssued env w.ambient w.transactions

/-- Every program extends the stored transactions. -/
theorem memory_extends (op : Op) {w : World Transactions π}
    (issued : RowsIssued env w.ambient w.transactions) :
    let w' := (step env (.inMemory settings verifier provider) op w).2
    RowsIssued env w'.ambient w'.transactions ∧
      w.transactions.Extends SameIdentity w'.transactions :=
  @RowStore.run_extends _ _ env (.inMemory settings verifier provider)
    InMemoryTransactionRepository.rowStore _ _ w issued

theorem KeysSettled.start (env : Env) (state : π) :
    KeysSettled env (MpesaMcp.start Keyed.empty state) where
  distinct _ _ ht := absurd ht List.not_mem_nil
  issued _ ht := absurd ht List.not_mem_nil

theorem KeysSettled.step {op : Op} (indirect : ∀ args, op ≠ .savePendingTransaction args)
    {w : World Transactions π} (h : KeysSettled env w) :
    KeysSettled env (step env (.inMemory settings verifier provider) op w).2 := by
  refine ⟨?_, (memory_extends op h.issued).1⟩
  cases memory_step indirect w with
  | silent paired => exact h.distinct.paired paired
  | pushes key _ request w₁ idle _ answer _ _ _ push =>
    cases push with
    | existing t _ _ after =>
      rw [after, idle.1]
      exact h.distinct
    | declined _ e _ transactions =>
      rw [transactions, idle.1]
      exact h.distinct
    | recorded missing response t k _ createdAt updatedAt record _ put =>
      rw [put, idle.1]
      rw [idle.1] at missing
      refine h.distinct.put ?_ missing
      rw [record]
      rfl

/-- Along a run the keys stay settled, and every stored transaction lasts: by induction on the
operations, since a push with a key that is found makes no payment. -/
theorem KeysSettled.run {ops : List Op}
    (indirect : ∀ op ∈ ops, ∀ args, op ≠ .savePendingTransaction args) {w : World Transactions π}
    (h : KeysSettled env w) :
    let w' := final (MpesaMcp.step env (.inMemory settings verifier provider)) w ops
    KeysSettled env w' ∧ w.transactions.Extends SameIdentity w'.transactions := by
  induction ops generalizing w with
  | nil => exact ⟨h, .refl SameIdentity.refl _⟩
  | cons op ops ih =>
    have hstep : KeysSettled env (MpesaMcp.step env (.inMemory settings verifier provider) op w).2 :=
      h.step (indirect op List.mem_cons_self)
    obtain ⟨hfinal, hextends⟩ := ih (fun op hop => indirect op (List.mem_cons_of_mem _ hop)) hstep
    exact ⟨hfinal, Keyed.Extends.trans (R := SameIdentity) (fun _ _ _ => SameIdentity.trans)
      (memory_extends op h.issued).2 hextends⟩

/-- A provider response for a key is stored under it, and named. -/
theorem stored_of_responds {idempotencyKey : String} {op : Op} {w : World Transactions π}
    (indirect : ∀ args, op ≠ .savePendingTransaction args)
    (responds : Responds env (.inMemory settings verifier provider) idempotencyKey
      (stepAt (step env (.inMemory settings verifier provider)) w op)) :
    let r := step env (.inMemory settings verifier provider) op w
    ∃ t ∈ r.2.transactions.values, t.idempotencyKey = some idempotencyKey ∧ Names t r.1 := by
  intro r
  obtain ⟨hreaches, call, hcall, response, hresponse⟩ := responds
  cases memory_step indirect w with
  | silent _ _ reaches => exact absurd hreaches (reaches idempotencyKey)
  | pushes key reaches request w₁ idle _ answer wrap payment answered push =>
    cases (reaches idempotencyKey).mp hreaches
    cases push with
    | existing t _ _ after =>
      rw [calls_of_same _ ((congrArg World.initiations after).trans idle.2)] at hcall
      cases hcall
    | declined _ e _ _ _ _ call' refused calls =>
      rw [calls_of_append _ (calls.trans (congrArg (· ++ _) idle.2))] at hcall
      cases List.mem_singleton.mp hcall
      cases refused.symm.trans hresponse
    | recorded missing response' t k _ createdAt updatedAt record answer put =>
      refine ⟨t, ?_, by rw [record]; rfl, _, _, answered.trans (congrArg _ answer), payment _, ?_⟩
      · rw [put]
        exact Keyed.mem_values_put.mpr (Or.inl rfl)
      · rw [record]
        exact ⟨rfl, rfl, rfl, rfl⟩

/-- Whoever reaches the key of a stored transaction calls nobody and is answered with it. -/
theorem answered_of_stored {idempotencyKey : String} {op : Op} {w : World Transactions π}
    (indirect : ∀ args, op ≠ .savePendingTransaction args) (distinct : DistinctKeys w.transactions)
    {t : PendingTransaction} (ht : t ∈ w.transactions.values)
    (hkey : t.idempotencyKey = some idempotencyKey)
    (hreaches : Reaches env (.inMemory settings verifier provider) idempotencyKey
      (stepAt (step env (.inMemory settings verifier provider)) w op)) :
    calls (stepAt (step env (.inMemory settings verifier provider)) w op) = [] ∧
      Names t (step env (.inMemory settings verifier provider) op w).1 := by
  have hfound := distinct.keyMatch ht hkey
  cases memory_step indirect w with
  | silent _ _ reaches => exact absurd hreaches (reaches idempotencyKey)
  | pushes key reaches request w₁ idle _ answer wrap payment answered push =>
    cases (reaches idempotencyKey).mp hreaches
    rw [← idle.1] at hfound
    cases push with
    | existing u found answer after =>
      cases found.symm.trans hfound
      exact ⟨calls_of_same _ ((congrArg World.initiations after).trans idle.2), _, _,
        answered.trans (congrArg _ answer), payment _, rfl, rfl, rfl, rfl⟩
    | declined missing => cases missing.symm.trans hfound
    | recorded missing => cases missing.symm.trans hfound

end Step

/-! ## The theorem -/

section Theorem

variable {π : Type} (env : Env) (settings : Settings) (verifier : CallbackSourceVerifier)
  (provider : PaymentProvider π)

/-- **One transaction for one key**: from empty in-memory stores, in every run that saves nothing
behind the back of the payment service. The lookup by the key comes before the payment, and nothing can
come between in a run of operations one after another. -/
theorem one_payment_per_key (state : π) (ops : List Op)
    (indirect : ∀ op ∈ ops, ∀ args, op ≠ .savePendingTransaction args) :
    let container := AppContainer.inMemory settings verifier provider
    OnePayment env container (trace (step env container) (start Keyed.empty state) ops) := by
  intro container
  have settled : ∀ before : List Op, (∀ op ∈ before, ∀ args, op ≠ .savePendingTransaction args) →
      KeysSettled env (final (step env container) (start Keyed.empty state) before) :=
    fun before h => (KeysSettled.run h (KeysSettled.start env state)).1
  refine ⟨fun st hst => ?_, fun st hst hcalls => ?_, fun history st later idempotencyKey hsplit
    hresponds => ?_⟩
  · obtain ⟨before, op, after, rfl, rfl⟩ := mem_trace_split hst
    exact ((settled before fun op hop => indirect op (by simp [hop])).step
      (indirect op (by simp))).distinct
  · obtain ⟨before, op, after, rfl, rfl⟩ := mem_trace_split hst
    cases memory_step (indirect op (by simp)) _ with
    | silent _ idle => exact absurd (calls_of_same _ idle) hcalls
    | pushes key reaches => exact ⟨key, (reaches key).mpr rfl⟩
  · obtain ⟨before, op, after, rfl, rfl, rfl, rfl⟩ := trace_split hsplit
    have hbefore := settled before fun op hop => indirect op (by simp [hop])
    have hop := indirect op (by simp)
    obtain ⟨t, ht, hkey, hnames⟩ := stored_of_responds hop hresponds
    refine ⟨t, hkey, hnames, fun next hnext hreaches => ?_⟩
    obtain ⟨between, op', rest, rfl, rfl⟩ := mem_trace_split hnext
    have hbetween : ∀ op ∈ between, ∀ args, op ≠ .savePendingTransaction args :=
      fun op hop => indirect op (by simp [hop])
    obtain ⟨hsettled, hextends⟩ := (hbefore.step hop).run hbetween
    obtain ⟨u, hu, htu⟩ := hextends.mem ht
    obtain ⟨hquiet, hanswered⟩ := answered_of_stored (indirect op' (by simp)) hsettled.distinct hu
      (htu.idempotencyKey.trans hkey) hreaches
    exact ⟨hquiet, u, htu.transactionId ▸ Keyed.mem_values_iff.mp hu, htu, hanswered⟩

/-- A request above the limit, a push under its key, and the approval behind it. -/
theorem one_payment_per_key_approved :
    OnePayment Env.still (.mock {}) (trace (step Env.still (.mock {})) (start Keyed.empty ())
      [.initiateStkPush ⟨some "254700000000", some 20000, "order", "goods", some "key"⟩,
        .initiateStkPush ⟨some "254700000000", some 10, "order", "goods", some "key"⟩,
        .executeApprovedPayment "1" "alice"]) :=
  one_payment_per_key Env.still {} .development MockDarajaPaymentProvider () _ (by simp)

end Theorem

end MpesaMcp
