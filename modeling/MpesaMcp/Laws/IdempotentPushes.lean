import MpesaMcp.Laws.PaymentGating
import MpesaMcp.Laws.ProviderDecline

/-!
# How often the provider takes effect for one idempotency key

The key of a push is recorded only behind a response of the provider. A push that takes effect and
raises leaves no trace in the store, so a retry with the same key pushes again. In runs in which every
effective push is answered and saved, the provider takes effect at most once for each key
(`one_effect_per_key`).
-/

set_option autoImplicit false

namespace MpesaMcp

open Library Python PaymentService

/-! ## The property -/

/-- The key that an operation pays under, if it names one. -/
def keyOf {τ π : Type} (py : Runtime) (op : Op) (w : World τ π) : Option String :=
  match op with
  | .initiateStkPush args => (requestedPayment args).map (keyFor py args)
  | .executeApprovedPayment approvalId _ => do
    let approval ← w.approvals.get approvalId
    let (_, idempotencyKey) ← executablePayload approval.payload
    some idempotencyKey
  | _ => none

/-- How often the provider takes effect in a step, for requests that carry this key. -/
def effectsFor {τ π : Type} (py : Runtime) (idempotencyKey : String) (st : AppStep τ π) : Nat :=
  if keyOf py st.input st.before = some idempotencyKey then
    (calls st).countP fun call => call.takesEffect
  else 0

/-- No save is answered by an exception. -/
def SavesAnswered : (m : Msg) → Except Exn m.Answer → Prop
  | .transactions (.savePendingTransaction _), .error _ => False
  | _, _ => True

/-- Where the step pushes with effect, the provider returns a response and the repository saves it. -/
def Unambiguous {τ π : Type} (env : Env) (container : AppContainer τ π) (st : AppStep τ π) : Prop :=
  ∀ call ∈ calls st, call.takesEffect = true → (∃ response, call.result = .ok response) ∧
    (program container env.toRuntime st.input).Observes (handle env container) SavesAnswered
      st.before

/-! ## One push -/

section Push

variable {τ π : Type} {env : Env} {container : AppContainer τ π}

/-- A push whose save is answered by an exception is not one whose saves are answered: this is what
rules out the branch in which the provider accepted and nothing was stored. -/
theorem not_observes_lost {request : InitiatePayment} {idempotencyKey : String}
    {response : PaymentInitiationResponse} {w w₁ : World τ π} {e : Exn} {s : Ambient × τ}
    (missing : (keyAnswer env container idempotencyKey w.store).1 = .ok none)
    (answered : pushAnswer env container request (w.lookedUp env container idempotencyKey) =
      (.ok response, w₁))
    (failed : saveAnswer env container request idempotencyKey response w₁.store = (.error e, s)) :
    ¬ (executeStkPush request idempotencyKey).Observes (handle env container) SavesAnswered w := by
  have hlookup : handle env container
      (.transactions (.findByIdempotencyKey idempotencyKey)) w =
        (.ok none, w.lookedUp env container idempotencyKey) := Prod.ext missing rfl
  have hpush : handle env container (.provider (.initiatePayment request))
      (w.lookedUp env container idempotencyKey) = (.ok response, w₁) := answered
  intro hobserved
  simp only [executeStkPush, Prog.observes_bind] at hobserved
  have hrest := hobserved.2 none (by rw [run_ask, hlookup])
  rw [run_ask, hlookup] at hrest
  simp only [Prog.observes_bind, Prog.run_attempt, run_ask, hpush] at hrest
  have hrecord := hrest.2 (.ok response) rfl
  simp only [recordInitiation, Prog.observes_bind] at hrecord
  have hsave := (Prog.observes_send _ _).mp hrecord.1
  have herror : (handle env container (.transactions (.savePendingTransaction
      (saveArguments request idempotencyKey response))) w₁).1 = .error e := congrArg Prod.fst failed
  rw [herror] at hsave
  exact hsave

/-- A push makes no call, or one for a key that no row has; where the call is answered and saved, a row
has the key then. -/
theorem RowStore.push_calls (store : RowStore container.transactionRepository)
    (request : InitiatePayment) (idempotencyKey : String) (w : World τ π) :
    let w' := (Prog.run (handle env container) (executeStkPush request idempotencyKey) w).2
    w'.initiations = w.initiations ∨
    (¬ HasKey idempotencyKey (store.rows w.transactions) ∧ ∃ call : Initiation,
      w'.initiations = w.initiations ++ [call] ∧
      ((∃ response, call.result = .ok response) →
        (executeStkPush request idempotencyKey).Observes (handle env container) SavesAnswered w →
        HasKey idempotencyKey (store.rows w'.transactions))) := by
  intro w'
  cases push_cases env container request idempotencyKey w with
  | unread e _ _ after => exact Or.inl ((congrArg World.initiations after).trans rfl)
  | existing t _ _ after => exact Or.inl ((congrArg World.initiations after).trans rfl)
  | declined e missing w₁ raised _ after =>
    obtain ⟨call, hresult, hcalls⟩ := pushAnswer_initiations env container raised
    refine Or.inr ⟨store.not_hasKey missing, call,
      (congrArg World.initiations after).trans hcalls, ?_⟩
    rintro ⟨response, hresponse⟩
    cases hresult.symm.trans hresponse
  | lost response missing w₁ answered e s failed _ after =>
    obtain ⟨call, -, hcalls⟩ := pushAnswer_initiations env container answered
    refine Or.inr ⟨store.not_hasKey missing, call,
      (congrArg World.initiations after).trans hcalls, fun _ hobserved => ?_⟩
    exact absurd hobserved (not_observes_lost missing answered failed)
  | recorded response missing w₁ answered t s saved answer after =>
    obtain ⟨call, -, hcalls⟩ := pushAnswer_initiations env container answered
    obtain ⟨events, after⟩ := after
    refine Or.inr ⟨store.not_hasKey missing, call,
      (congrArg World.initiations after).trans hcalls, fun _ _ => ?_⟩
    rcases store.push_answered missing (congrArg Prod.fst answered) with
      ⟨-, -, ⟨e, herror⟩, -⟩ | ⟨-, ⟨u, hu, -, -, hkey, -⟩, -⟩
    · cases herror.symm.trans answer
    · exact ⟨u, hu, hkey⟩

/-! ## One step -/

/-- A step makes no call, or runs one push: under the key of its operation, from a world with the same
transactions and calls. -/
theorem step_pushes (op : Op) (w : World τ π) :
    let w' := (step env container op w).2
    w'.initiations = w.initiations ∨ ∃ request idempotencyKey, ∃ w₁ : World τ π,
      keyOf env.toRuntime op w = some idempotencyKey ∧ w.Idle w₁ ∧
      w' = (Prog.run (handle env container) (executeStkPush request idempotencyKey) w₁).2 ∧
      ∀ P, (program container env.toRuntime op).Observes (handle env container) P w →
        (executeStkPush request idempotencyKey).Observes (handle env container) P w₁ := by
  intro w'
  cases step_cases env container op w with
  | moved _ same => exact Or.inl same
  | filed _ _ _ _ _ _ _ _ _ _ _ _ same => exact Or.inl same
  | paid args input request requested positive within =>
    subst input
    have hprogram := initiateStkPush_within env container requested positive within
    refine Or.inr ⟨request, keyFor env.toRuntime args request, w, ?_, ⟨rfl, rfl⟩, ?_, ?_⟩
    · simp only [keyOf, requested, Option.map_some]
    · simp only [w', step, program, Prog.run_map, hprogram]
    · intro P hP
      simpa only [program, Prog.observes_map, hprogram] using hP
  | executed approvalId operatorId input =>
    subst input
    obtain ⟨output, w₂, hrun, hcase⟩ := execution_cases env container approvalId operatorId w
    have hw' : w' = w₂ := by
      simp only [w', step, program, Prog.run_map, hrun]
    rw [hw']
    cases hcase with
    | absent _ _ _ idle => exact Or.inl idle.2
    | expired _ _ _ _ _ idle => exact Or.inl idle.2
    | refused _ _ _ _ _ idle => exact Or.inl idle.2
    | reviewed _ _ _ _ _ _ _ _ idle => exact Or.inl idle.2
    | approved a stored _ _ _ _ w₁ _ _ idle paid _ _ _ observed =>
      rw [paid]
      cases hnamed : executablePayload a.payload with
      | none =>
        left
        have hskip : executeApprovedStkPush a.payload = pure {
            status := .policy .blocked
            allowed := false
            reason := "Approval payload is not executable." } := by
          simp only [executeApprovedStkPush, hnamed]
        rw [hskip]
        exact idle.2
      | some named =>
        obtain ⟨request, idempotencyKey⟩ := named
        have hprogram : executeApprovedStkPush a.payload =
            executeStkPush request idempotencyKey := by
          simp only [executeApprovedStkPush, hnamed]
        refine Or.inr ⟨request, idempotencyKey, w₁, ?_, idle, by rw [hprogram], ?_⟩
        · simp only [keyOf, stored, hnamed, Option.bind_eq_bind, Option.bind_some]
        · intro P hP
          rw [← hprogram]
          exact observed P (by simpa only [program, Prog.observes_map] using hP)

/-- A step that pushes with effect does it once, for a key that no row has; where the push is answered
and saved, a row has the key then. -/
theorem RowStore.effectsFor_spent (store : RowStore container.transactionRepository)
    {idempotencyKey : String} {op : Op} {w : World τ π}
    (spent : effectsFor env.toRuntime idempotencyKey (stepAt (step env container) w op) ≠ 0) :
    effectsFor env.toRuntime idempotencyKey (stepAt (step env container) w op) = 1 ∧
      ¬ HasKey idempotencyKey (store.rows w.transactions) ∧
      (Unambiguous env container (stepAt (step env container) w op) →
        HasKey idempotencyKey (store.rows (step env container op w).2.transactions)) := by
  have hkey : keyOf env.toRuntime op w = some idempotencyKey := by
    by_contra hother
    exact spent (if_neg hother)
  have hcost : effectsFor env.toRuntime idempotencyKey (stepAt (step env container) w op) =
      (calls (stepAt (step env container) w op)).countP fun call => call.takesEffect :=
    if_pos hkey
  rw [hcost] at spent ⊢
  rcases @step_pushes τ π env container op w with
    hquiet | ⟨request, key, w₁, hnamed, hidle, hafter, hobserved⟩
  · rw [calls_of_same (stepAt (step env container) w op) hquiet] at spent
    exact absurd rfl spent
  · cases hkey.symm.trans hnamed
    have hpush := @RowStore.push_calls τ π env container store request idempotencyKey w₁
    rw [← hafter, hidle.1, hidle.2] at hpush
    rcases hpush with hquiet | ⟨hmissing, call, hcalls, hrecorded⟩
    · rw [calls_of_same (stepAt (step env container) w op) hquiet] at spent
      exact absurd rfl spent
    · have hcall : calls (stepAt (step env container) w op) = [call] :=
        calls_of_append (stepAt (step env container) w op) hcalls
      rw [hcall] at spent ⊢
      have heffect : call.takesEffect = true := by
        by_contra hnone
        exact spent (List.countP_cons_of_neg hnone)
      refine ⟨List.countP_cons_of_pos heffect, hmissing, fun hclear => ?_⟩
      obtain ⟨hanswered, hsaved⟩ := hclear call (by rw [hcall]; exact List.mem_cons_self) heffect
      exact hrecorded hanswered (hobserved _ hsaved)

end Push

/-! ## Whole runs -/

section Runs

variable {τ π : Type} {env : Env} {container : AppContainer τ π}

/-- **At most one effect for each key.** In every run over any repository and any provider, from a
store whose identifiers were drawn, in which each push that takes effect is answered and saved. -/
theorem one_effect_per_key (store : RowStore container.transactionRepository) {w : World τ π}
    (issued : RowsIssued env w.ambient (store.rows w.transactions)) (ops : List Op)
    (clear : ∀ st ∈ trace (step env container) w ops, Unambiguous env container st)
    (idempotencyKey : String) :
    total (effectsFor env.toRuntime idempotencyKey) (trace (step env container) w ops) ≤ 1 := by
  have kept : ∀ v op, RowsIssued env v.ambient (store.rows v.transactions) →
      RowsIssued env (step env container op v).2.ambient
        (store.rows (step env container op v).2.transactions) :=
    fun v op h => (store.run_extends (program container env.toRuntime op) h).1
  have stays : ∀ v op, (RowsIssued env v.ambient (store.rows v.transactions) ∧
        Unambiguous env container (stepAt (step env container) v op)) →
      HasKey idempotencyKey (store.rows v.transactions) →
      HasKey idempotencyKey (store.rows (step env container op v).2.transactions) :=
    fun v op h hkey => hkey.extends (store.run_extends (program container env.toRuntime op) h.1).2
  refine (total_le_one (C := fun st : AppStep τ π =>
    RowsIssued env st.before.ambient (store.rows st.before.transactions) ∧
      Unambiguous env container st) stays (fun v op _ hkey => ?_) (fun v op h hspent => ?_)
      w ops fun st hst => ⟨?_, clear st hst⟩).1
  · by_contra hspent
    exact (store.effectsFor_spent hspent).2.1 hkey
  · obtain ⟨hone, -, hrecorded⟩ := store.effectsFor_spent hspent
    exact ⟨hone, hrecorded h.2⟩
  · obtain ⟨before, op, _, _, rfl⟩ := mem_trace_split hst
    exact state_invariant
      (I := fun v : World τ π => RowsIssued env v.ambient (store.rows v.transactions)) issued kept
      before

end Runs

/-! ## A payment that is pushed twice -/

/-- Daraja, sending every push but leaving its request without an answer. The client makes two
requests for a push, and the second one sends it. -/
def silentServer : DarajaServer where
  answer _ request :=
    match request with
    | .oauthToken _ _ =>
      .response { statusCode := 200, body := some (.dict [("access_token", .str "token")]) }
    | _ => .timeout "timed out"
  pushes n := decide (n % 2 = 1)

/-- A call for 10 shillings under a key of its own. -/
def initiateTenShillings : Op :=
  .initiateStkPush {
    phoneNumber := some "254700000000"
    amount := some 10
    accountReference := "order"
    description := "goods"
    idempotencyKey := some "key" }

/-- A push that takes effect and times out is pushed again by a retry with the same key. -/
theorem charged_twice :
    let container := AppContainer.daraja {} .development InMemoryTransactionRepository
      sandboxSettings silentServer
    total (effectsFor Env.still.toRuntime "key")
      (trace (step .still container) (start Keyed.empty {})
        [initiateTenShillings, initiateTenShillings]) = 2 := by
  rfl

/-- A push that takes effect and is answered is pushed once, however often it is retried. -/
theorem charged_once :
    let container := AppContainer.inMemory {} .development MockDarajaPaymentProvider
    total (effectsFor Env.still.toRuntime "key")
      (trace (step .still container) (start Keyed.empty ())
        [initiateTenShillings, initiateTenShillings]) ≤ 1 := by
  refine one_effect_per_key InMemoryTransactionRepository.rowStore
    (fun _ h => absurd h List.not_mem_nil) _ ?_ "key"
  intro st hst call hcall _
  rcases List.mem_cons.mp hst with rfl | hst
  · cases List.mem_singleton.mp hcall
    exact ⟨⟨_, rfl⟩, trivial, trivial, trivial, trivial, trivial, trivial⟩
  · cases List.mem_singleton.mp hst
    exact nomatch hcall

end MpesaMcp
