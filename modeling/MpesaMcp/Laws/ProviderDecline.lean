import MpesaMcp.Daraja.Client
import MpesaMcp.Laws.RowStores

/-!
# Pushes that Daraja declines under a 2xx status

The client reports such a decline as data: the normalized response has the status `failed`. The
payment service does not read that status, so a declined push is stored and answered like an accepted
one (`declineHonoured_iff`).
-/

set_option autoImplicit false

namespace MpesaMcp

open Library Python PaymentService

/-- A container that pays through Daraja. -/
def AppContainer.daraja {τ : Type} (settings : Settings) (verifier : CallbackSourceVerifier)
    (repository : TransactionRepository τ) (daraja : DarajaSettings) (server : DarajaServer) :
    AppContainer τ DarajaState where
  settings := settings
  callbackSourceVerifier := verifier
  transactionRepository := repository
  paymentProvider := DarajaPaymentProvider daraja server

/-! ## The property -/

/-- The normalized response to a JSON object body, as the adapter hands it on. -/
def normalizedResponse (py : Runtime) (payload : PyDict) : PaymentInitiationResponse :=
  DarajaPaymentProvider.initiationResponse (RealDarajaClient.normalizeStkPush py payload)

/-- The answer to the caller calls the payment pending. -/
def AnsweredPending (output : Except Exn PaymentResponse) : Prop :=
  ∃ response, output = .ok response ∧ response.status = .transaction .pending ∧
    response.allowed = true

/-- A payment is live only behind an accepting response that names it, and a failed response changes
nothing and is not allowed. -/
structure DeclineHonoured {τ π : Type} (rows : τ → Transactions)
    (response : PaymentInitiationResponse) (w : World τ π) (output : Except Exn PaymentResponse)
    (w' : World τ π) : Prop where
  live : ((∃ t ∈ (rows w'.transactions).values, t ∉ (rows w.transactions).values ∧
      t.status = .pending) ∨ AnsweredPending output ∨
      w'.metrics.successfulPaymentCount ≠ w.metrics.successfulPaymentCount) →
    response.status = "pending" ∧ response.checkoutRequestId ≠ ""
  declined : response.status = "failed" →
    rows w'.transactions = rows w.transactions ∧
      ∃ answer, output = .ok answer ∧ answer.allowed = false

section Push

variable {τ : Type} {env : Env} {settings : Settings} {verifier : CallbackSourceVerifier}
  {repository : TransactionRepository τ} {daraja : DarajaSettings} {server : DarajaServer}

/-- Daraja answers the push of this payment with this JSON object, under a 2xx status. -/
def DarajaAnswers (env : Env) (daraja : DarajaSettings) (server : DarajaServer)
    (request : InitiatePayment) (payload : PyDict) (s : Ambient × DarajaState) : Prop :=
  (Prog.run (darajaAnswer env server) (RealDarajaClient.submitStkPush daraja request) s).1 =
    .ok (.dict payload)

/-- Whatever the body says, the client returns its normalized response. -/
theorem pushAnswer_of_darajaAnswers {request : InitiatePayment} {payload : PyDict}
    {w : World τ DarajaState}
    (answers : DarajaAnswers env daraja server request payload (w.ambient, w.provider)) :
    (pushAnswer env (.daraja settings verifier repository daraja server) request w).1 =
      .ok (normalizedResponse env.toRuntime payload) := by
  have hrun : (Prog.run (darajaAnswer env server)
      (RealDarajaClient.initiateStkPush daraja env.toRuntime request) (w.ambient, w.provider)).1 =
        .ok (RealDarajaClient.normalizeStkPush env.toRuntime payload) := by
    unfold DarajaAnswers at answers
    simp only [RealDarajaClient.initiateStkPush, Prog.run_bind]
    cases hsubmit : Prog.run (darajaAnswer env server)
        (RealDarajaClient.submitStkPush daraja request) (w.ambient, w.provider) with
    | mk answer s =>
    rw [hsubmit] at answers
    cases answers
    rfl
  show ((Prog.run (darajaAnswer env server) (RealDarajaClient.initiateStkPush daraja
    env.toRuntime request) (w.ambient, w.provider)).1.mapError ClientExn.toExn).map
      DarajaPaymentProvider.initiationResponse = _
  rw [hrun]
  rfl

theorem normalizedResponse_pending {py : Runtime} {payload : PyDict} :
    (normalizedResponse py payload).status = "pending" ↔
      RealDarajaClient.textOf py payload "ResponseCode" = "0" := by
  show (if RealDarajaClient.textOf py payload "ResponseCode" = "0" then "pending" else "failed") =
    "pending" ↔ _
  split
  next h => exact ⟨fun _ => h, fun _ => rfl⟩
  next h => exact ⟨fun hfailed => absurd hfailed (by decide), fun hcode => absurd hcode h⟩

theorem normalizedResponse_failed {py : Runtime} {payload : PyDict} :
    (normalizedResponse py payload).status = "failed" ↔
      RealDarajaClient.textOf py payload "ResponseCode" ≠ "0" := by
  show (if RealDarajaClient.textOf py payload "ResponseCode" = "0" then "pending" else "failed") =
    "failed" ↔ _
  split
  next h => exact ⟨fun hpending => absurd hpending (by decide), fun hcode => absurd h hcode⟩
  next h => exact ⟨fun _ => h, fun _ => rfl⟩

variable (store : RowStore repository)

/-- A body with another `ResponseCode` than `0` is stored as a payment, or its save raises. -/
theorem not_declineHonoured {request : InitiatePayment} {idempotencyKey : String}
    {payload : PyDict} {w : World τ DarajaState}
    (missing : (keyAnswer env (.daraja settings verifier repository daraja server) idempotencyKey
      w.store).1 = .ok none)
    (answers : DarajaAnswers env daraja server request payload
      ((w.lookedUp env (.daraja settings verifier repository daraja server) idempotencyKey).ambient,
        w.provider))
    (declines : RealDarajaClient.textOf env.toRuntime payload "ResponseCode" ≠ "0") :
    let r := Prog.run (handle env (.daraja settings verifier repository daraja server))
      (executeStkPush request idempotencyKey) w
    ¬ DeclineHonoured store.rows (normalizedResponse env.toRuntime payload) w r.1 r.2 := by
  intro r h
  obtain ⟨-, answer, hanswer, hallowed⟩ := h.declined (normalizedResponse_failed.mpr declines)
  have hanswered := @RowStore.push_answered τ DarajaState env
    (.daraja settings verifier repository daraja server) store request idempotencyKey _ w missing
    (pushAnswer_of_darajaAnswers answers)
  rcases hanswered with
    ⟨-, -, ⟨e, hraised⟩, -⟩ | ⟨-, -, ⟨e, hraised⟩ | ⟨t, hinitiated⟩⟩
  · cases hraised.symm.trans hanswer
  · cases hraised.symm.trans hanswer
  · cases hinitiated.symm.trans hanswer
    cases hallowed

/-- **A decline is honoured** exactly where it is none: the code is `0`, and the response names the
push, unless the repository refuses to save it. -/
theorem declineHonoured_iff {request : InitiatePayment} {idempotencyKey : String}
    {payload : PyDict} {w : World τ DarajaState}
    (missing : (keyAnswer env (.daraja settings verifier repository daraja server) idempotencyKey
      w.store).1 = .ok none)
    (answers : DarajaAnswers env daraja server request payload
      ((w.lookedUp env (.daraja settings verifier repository daraja server) idempotencyKey).ambient,
        w.provider)) :
    let r := Prog.run (handle env (.daraja settings verifier repository daraja server))
      (executeStkPush request idempotencyKey) w
    DeclineHonoured store.rows (normalizedResponse env.toRuntime payload) w r.1 r.2 ↔
      RealDarajaClient.textOf env.toRuntime payload "ResponseCode" = "0" ∧
        (RealDarajaClient.textOf env.toRuntime payload "CheckoutRequestID" ≠ "" ∨
          @RowStore.SaveRefused τ DarajaState (.daraja settings verifier repository daraja server)
            store env request idempotencyKey (normalizedResponse env.toRuntime payload) w) := by
  intro r
  by_cases hcode : RealDarajaClient.textOf env.toRuntime payload "ResponseCode" = "0"
  · have hpending := normalizedResponse_pending.mpr hcode
    have hfailed : ¬ (normalizedResponse env.toRuntime payload).status = "failed" :=
      fun h => normalizedResponse_failed.mp h hcode
    have hanswered := @RowStore.push_answered τ DarajaState env
      (.daraja settings verifier repository daraja server) store request idempotencyKey _ w missing
      (pushAnswer_of_darajaAnswers answers)
    rcases hanswered with
      ⟨hrefused, hsame, ⟨e, hraised⟩, hmetrics⟩ | ⟨hsaved, ⟨t, ht, hnew, hstatus, -, hid⟩, -⟩
    · refine ⟨fun _ => ⟨hcode, Or.inr hrefused⟩, fun _ => ⟨?_, fun h => absurd h hfailed⟩⟩
      rintro (⟨t, ht, hnew, -⟩ | ⟨answer, hanswer, -⟩ | hcount)
      · exact absurd (hsame ▸ ht) hnew
      · cases hraised.symm.trans hanswer
      · exact absurd (congrArg MetricsSnapshot.successfulPaymentCount hmetrics) hcount
    · constructor
      · exact fun h => ⟨hcode, Or.inl (h.live (Or.inl ⟨t, ht, hnew, hstatus⟩)).2⟩
      · rintro ⟨-, hnamed⟩
        exact ⟨fun _ => ⟨hpending, hnamed.resolve_right hsaved⟩, fun h => absurd h hfailed⟩
  · exact ⟨fun h => absurd h (not_declineHonoured store missing answers hcode),
      fun h => absurd h.1 hcode⟩

end Push

/-! ## A declined push that is stored -/

/-- Credentials for every name. -/
def sandboxSettings : DarajaSettings where
  darajaMode := "sandbox"
  credential _ := some "configured"

/-- Daraja, answering every push with this object under status 200. -/
def answeringServer (payload : PyDict) (pushes : Bool) : DarajaServer where
  answer _ request :=
    match request with
    | .oauthToken _ _ =>
      .response { statusCode := 200, body := some (.dict [("access_token", .str "token")]) }
    | _ => .response { statusCode := 200, body := some (.dict payload) }
  pushes _ := pushes

/-- A payment of 10 shillings. -/
def payTenShillings : InitiatePayment := ⟨"254700000000", 10, "order", "goods"⟩

/-- The body of a decline. -/
def declineBody : PyDict := [("ResponseCode", .str "1")]

/-- The body of an accepted push. -/
def acceptBody : PyDict :=
  [("CheckoutRequestID", .str "ws_CO_1"), ("MerchantRequestID", .str "m1"),
    ("ResponseCode", .str "0"), ("ResponseDescription", .str "Success.")]

/-- A push that Daraja declines with code `1` is stored and answered as pending. -/
theorem declined_push_is_stored :
    let container := AppContainer.daraja {} .development InMemoryTransactionRepository
      sandboxSettings (answeringServer declineBody false)
    let r := Prog.run (handle .still container) (executeStkPush payTenShillings "key")
      (start Keyed.empty {})
    DarajaAnswers .still sandboxSettings (answeringServer declineBody false) payTenShillings
      declineBody ({}, {}) ∧ AnsweredPending r.1 ∧
    ¬ DeclineHonoured InMemoryTransactionRepository.rowStore.rows
      (normalizedResponse Env.still.toRuntime declineBody) (start Keyed.empty {}) r.1 r.2 :=
  ⟨rfl, ⟨_, rfl, rfl, rfl⟩,
    not_declineHonoured InMemoryTransactionRepository.rowStore rfl rfl (by decide)⟩

/-- A push that Daraja accepts under an id is stored and answered as the property asks. -/
theorem accepted_push_is_honoured :
    let container := AppContainer.daraja {} .development InMemoryTransactionRepository
      sandboxSettings (answeringServer acceptBody true)
    let r := Prog.run (handle .still container) (executeStkPush payTenShillings "key")
      (start Keyed.empty {})
    DeclineHonoured InMemoryTransactionRepository.rowStore.rows
      (normalizedResponse Env.still.toRuntime acceptBody) (start Keyed.empty {}) r.1 r.2 := by
  refine (declineHonoured_iff InMemoryTransactionRepository.rowStore ?_ ?_).mpr ⟨?_, Or.inl ?_⟩
  · rfl
  · rfl
  · decide
  · decide

end MpesaMcp
