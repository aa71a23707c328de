import MpesaMcp.Laws.Callbacks
import MpesaMcp.Laws.Payments

/-!
# What one push does

`push_cases` says what one `_execute_stk_push` answers and does, over any repository and any provider,
in terms of the answers of the lookup, of the provider and of the save.
-/

set_option autoImplicit false

namespace MpesaMcp

open Library Python PaymentService

variable {τ π : Type} (env : Env) (container : AppContainer τ π)

/-- The repository's answer to the lookup of a key. -/
def keyAnswer (idempotencyKey : String) (s : Ambient × τ) :
    Except Exn (Option PendingTransaction) × Ambient × τ :=
  container.transactionRepository.answer env (.findByIdempotencyKey idempotencyKey) s

/-- The repository's answer to the save of a response. -/
def saveAnswer (request : InitiatePayment) (idempotencyKey : String)
    (response : PaymentInitiationResponse) (s : Ambient × τ) :
    Except Exn PendingTransaction × Ambient × τ :=
  container.transactionRepository.answer env
    (.savePendingTransaction (saveArguments request idempotencyKey response)) s

/-- The world after the lookup. -/
def World.lookedUp (idempotencyKey : String) (w : World τ π) : World τ π :=
  w.withStore (keyAnswer env container idempotencyKey w.store).2

/-- The provider's answer to the push, and the world after it. -/
def pushAnswer (request : InitiatePayment) (w : World τ π) :
    Except Exn PaymentInitiationResponse × World τ π :=
  handle env container (.provider (.initiatePayment request)) w

/-- The provider writes no transaction, and the readings move forward. -/
theorem pushAnswer_spares {request : InitiatePayment} {w w₁ : World τ π}
    {answer : Except Exn PaymentInitiationResponse}
    (h : pushAnswer env container request w = (answer, w₁)) :
    w₁.transactions = w.transactions ∧ w.ambient.Forward w₁.ambient := by
  have hforward := handle_forward env container (.provider (.initiatePayment request)) w
  have hw : (pushAnswer env container request w).2 = w₁ := congrArg Prod.snd h
  rw [← hw]
  exact ⟨rfl, hforward⟩

/-- A push adds one call to the record, with the provider's answer. -/
theorem pushAnswer_initiations {request : InitiatePayment} {w w₁ : World τ π}
    {answer : Except Exn PaymentInitiationResponse}
    (h : pushAnswer env container request w = (answer, w₁)) :
    ∃ call : Initiation, call.result = answer ∧ w₁.initiations = w.initiations ++ [call] := by
  have hanswer : (pushAnswer env container request w).1 = answer := congrArg Prod.fst h
  have hw : (pushAnswer env container request w).2 = w₁ := congrArg Prod.snd h
  rw [← hanswer, ← hw]
  exact ⟨_, rfl, rfl⟩

/-- What one `_execute_stk_push` answers and does. -/
inductive PushCase (request : InitiatePayment) (idempotencyKey : String) (w : World τ π)
    (output : Except Exn PaymentResponse) (w' : World τ π) : Prop
  | unread (e : Exn) (failed : (keyAnswer env container idempotencyKey w.store).1 = .error e)
      (raised : output = .error e) (after : w' = w.lookedUp env container idempotencyKey)
  | existing (t : PendingTransaction)
      (found : (keyAnswer env container idempotencyKey w.store).1 = .ok (some t))
      (answer : output = .ok (responseFromExistingTransaction t))
      (after : w' = w.lookedUp env container idempotencyKey)
  | declined (e : Exn) (missing : (keyAnswer env container idempotencyKey w.store).1 = .ok none)
      (w₁ : World τ π)
      (raised : pushAnswer env container request (w.lookedUp env container idempotencyKey) =
        (.error e, w₁))
      (answer : output = .ok (providerFailure e))
      (after : w' = { w₁ with metrics := w₁.metrics.increment .failedPayment })
  | lost (response : PaymentInitiationResponse)
      (missing : (keyAnswer env container idempotencyKey w.store).1 = .ok none)
      (w₁ : World τ π)
      (answered : pushAnswer env container request (w.lookedUp env container idempotencyKey) =
        (.ok response, w₁))
      (e : Exn) (s : Ambient × τ)
      (failed : saveAnswer env container request idempotencyKey response w₁.store = (.error e, s))
      (raised : output = .error e) (after : w' = w₁.withStore s)
  | recorded (response : PaymentInitiationResponse)
      (missing : (keyAnswer env container idempotencyKey w.store).1 = .ok none)
      (w₁ : World τ π)
      (answered : pushAnswer env container request (w.lookedUp env container idempotencyKey) =
        (.ok response, w₁))
      (t : PendingTransaction) (s : Ambient × τ)
      (saved : saveAnswer env container request idempotencyKey response w₁.store = (.ok t, s))
      (answer : output = .ok (initiated t idempotencyKey response))
      (after : ∃ events, w' = { w₁.withStore s with
        auditEvents := events, metrics := w₁.metrics.increment .successfulPayment })

/-- **What `_execute_stk_push` does**, over any repository and provider: the key is found and answers,
the provider raises, or the response is saved. What each case leaves behind is said of the stores and
of the record of calls. -/
theorem push_cases (request : InitiatePayment) (idempotencyKey : String) (w : World τ π) :
    let r := Prog.run (handle env container) (executeStkPush request idempotencyKey) w
    PushCase env container request idempotencyKey w r.1 r.2 := by
  intro r
  have hr : r = Prog.run (handle env container) (executeStkPush request idempotencyKey) w := rfl
  have hlookup : handle env container
      (.transactions (.findByIdempotencyKey idempotencyKey)) w =
        ((keyAnswer env container idempotencyKey w.store).1,
          w.lookedUp env container idempotencyKey) := rfl
  simp only [executeStkPush, Prog.run_bind, run_ask, hlookup] at hr
  cases hfind : (keyAnswer env container idempotencyKey w.store).1 with
  | error e =>
    rw [hfind] at hr
    rw [hr]
    exact .unread e hfind rfl rfl
  | ok found =>
    rw [hfind] at hr
    cases found with
    | some t =>
      rw [hr]
      exact .existing t hfind rfl rfl
    | none =>
      cases hpush : pushAnswer env container request
          (w.lookedUp env container idempotencyKey) with
      | mk answer w₁ =>
      have hpush' : handle env container (.provider (.initiatePayment request))
          (w.lookedUp env container idempotencyKey) = (answer, w₁) := hpush
      simp only [Prog.run_bind, Prog.run_attempt, run_ask, hpush'] at hr
      cases answer with
      | error e =>
        rw [hr]
        exact .declined e hfind w₁ hpush rfl rfl
      | ok response =>
        have hsend : handle env container (.transactions (.savePendingTransaction
            (saveArguments request idempotencyKey response))) w₁ =
              ((saveAnswer env container request idempotencyKey response w₁.store).1,
                w₁.withStore (saveAnswer env container request idempotencyKey response
                  w₁.store).2) := rfl
        simp only [recordInitiation, Prog.run_bind, run_ask, hsend] at hr
        cases hsave : saveAnswer env container request idempotencyKey response w₁.store with
        | mk saved s =>
        rw [hsave] at hr
        cases saved with
        | error e =>
          rw [hr]
          exact .lost response hfind w₁ hpush e s hsave rfl rfl
        | ok t =>
          rw [hr]
          exact .recorded response hfind w₁ hpush t s hsave rfl ⟨_, rfl⟩

/-- A push whose lookup finds nothing reaches the provider, whatever its request. -/
theorem push_called (request : InitiatePayment) {idempotencyKey : String} {w : World τ π}
    (missing : (keyAnswer env container idempotencyKey w.store).1 = .ok none) :
    ∃ call : Initiation, call.request = request ∧ (Prog.run (handle env container)
      (executeStkPush request idempotencyKey) w).2.initiations = w.initiations ++ [call] := by
  have called : ∀ {answer w₁ v}, pushAnswer env container request
        (w.lookedUp env container idempotencyKey) = (answer, w₁) →
      v = w₁.initiations → ∃ call, v = w.initiations ++ [call] := by
    intro answer w₁ v pushed hv
    obtain ⟨call, -, hcalls⟩ := pushAnswer_initiations env _ pushed
    exact ⟨call, hv.trans hcalls⟩
  have hcalled : ∃ call, (Prog.run (handle env container)
      (executeStkPush request idempotencyKey) w).2.initiations = w.initiations ++ [call] := by
    cases push_cases env container request idempotencyKey w with
    | unread e failed => cases failed.symm.trans missing
    | existing t found => cases found.symm.trans missing
    | declined e _ w₁ raised _ after =>
      exact called raised ((congrArg World.initiations after).trans rfl)
    | lost response _ w₁ answered _ _ _ _ after =>
      exact called answered ((congrArg World.initiations after).trans rfl)
    | recorded response _ w₁ answered _ _ _ _ after =>
      obtain ⟨events, after⟩ := after
      exact called answered ((congrArg World.initiations after).trans rfl)
  -- the call that was added is the one for the request
  rcases run_executeStkPush_initiations env container request idempotencyKey w with hsame | hcall
  · obtain ⟨call, hcall⟩ := hcalled
    simp [hcall] at hsame
  · exact hcall

end MpesaMcp
