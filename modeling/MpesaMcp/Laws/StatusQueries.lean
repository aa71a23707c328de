import MpesaMcp.Laws.ProviderDecline

/-!
# Status queries of the Daraja client

`exchange` says what a status query comes to in terms of the circuit and of Daraja's answers alone;
the client's own query ends alike (`queryOutcome_alike`). `check_transaction_status` turns most
exchanges without an answer into a response with the status `failed` (`checkAnswer_unanswered`).
-/

set_option autoImplicit false

namespace MpesaMcp

open Library Python

/-! ## One query -/

namespace RealDarajaClient

/-- The settings of a status query are configured. -/
structure Queryable (settings : DarajaSettings) : Prop where
  initiatorName : (configured settings.darajaInitiatorName).isSome
  securityCredential : (configured settings.darajaSecurityCredential).isSome
  shortcode : ((configured (settings.modeCredential .shortcode)).or
    (configured (settings.credential .shortcode))).isSome
  resultUrl : (configured settings.darajaTransactionStatusResultUrl).isSome
  timeoutUrl : (configured settings.darajaTransactionStatusTimeoutUrl).isSome

/-- Daraja answered the query with a JSON object under a 2xx status. -/
def Answered (outcome : Except ClientExn PyValue) : Prop := ∃ payload, outcome = .ok (.dict payload)

/-- `check_transaction_status` turns the outcome of the query into a response. -/
def Handled : Except ClientExn PyValue → Prop
  | .ok value => ∃ payload, value = .dict payload
  | .error (.status response) => ∀ value ∈ response.body, ∃ payload, value = .dict payload
  | .error (.provider _ _) => False
  | .error (.attributeError _) => False
  | .error _ => True

/-- The settings are read one after the other, and a missing one raises; nothing is sent before all of
them are read. -/
theorem transactionStatusPayload_cases (settings : DarajaSettings) :
    (Queryable settings ∧ transactionStatusPayload settings = pure ()) ∨
    (¬ Queryable settings ∧ ∃ e, transactionStatusPayload settings = .raise e) := by
  unfold transactionStatusPayload requiredSetting requiredCredential
  cases hname : configured settings.darajaInitiatorName with
  | none => exact Or.inr ⟨fun h => by simpa [hname] using h.initiatorName, _, rfl⟩
  | some name =>
  cases hsecurity : configured settings.darajaSecurityCredential with
  | none => exact Or.inr ⟨fun h => by simpa [hsecurity] using h.securityCredential, _, rfl⟩
  | some security =>
  cases hshortcode : (configured (settings.modeCredential .shortcode)).or
      (configured (settings.credential .shortcode)) with
  | none => exact Or.inr ⟨fun h => by simpa [hshortcode] using h.shortcode, _, rfl⟩
  | some shortcode =>
  cases hresult : configured settings.darajaTransactionStatusResultUrl with
  | none => exact Or.inr ⟨fun h => by simpa [hresult] using h.resultUrl, _, rfl⟩
  | some result =>
  cases htimeout : configured settings.darajaTransactionStatusTimeoutUrl with
  | none => exact Or.inr ⟨fun h => by simpa [htimeout] using h.timeoutUrl, _, rfl⟩
  | some timeout =>
    refine Or.inl ⟨⟨?_, ?_, ?_, ?_, ?_⟩, rfl⟩ <;>
      simp only [hname, hsecurity, hshortcode, hresult, htimeout, Option.isSome_some]

end RealDarajaClient

/-! ## The exchange behind a query -/

/-- A status within 2xx. -/
abbrev HttpResponse.Successful (response : HttpResponse) : Prop :=
  200 ≤ response.statusCode ∧ response.statusCode < 300

/-- The outcome as a client reads it: the body of a successful response, or the failure. -/
def HttpOutcome.read : HttpOutcome → Except ClientExn PyValue
  | .response answer =>
    if answer.Successful then
      match answer.body with
      | some value => .ok value
      | none => .error (.valueError "the body is not JSON")
    else .error (.status answer)
  | .timeout text => .error (.timeout text)
  | .connectError text => .error (.connectError text)
  | .otherError text => .error (.otherHttp text)

/-- What a request with retries returns or raises. -/
def HttpOutcome.result : HttpOutcome → Except ClientExn HttpResponse
  | .response answer => .ok answer
  | .timeout text => .error (.timeout text)
  | .connectError text => .error (.connectError text)
  | .otherError text => .error (.otherHttp text)

namespace RealDarajaClient

/-- What a request with retries obtains from the n-th request on, and the number of the next one. -/
def lastAttempt (server : DarajaServer) (request : HttpRequest) : Nat → Nat → HttpOutcome × Nat
  | 0, n => (server.answer n request, n + 1)
  | left + 1, n =>
    match server.answer n request with
    | .timeout _ => lastAttempt server request left (n + 1)
    | .connectError _ => lastAttempt server request left (n + 1)
    | .otherError text => (.otherError text, n + 1)
    | .response response =>
      if response.statusCode ∈ [502, 503, 504] then lastAttempt server request left (n + 1)
      else (.response response, n + 1)

/-- The token in a body that is read. -/
def accessToken : PyValue → Except ClientExn String
  | .dict payload =>
    match lookup payload "access_token" with
    | .str token =>
      if token = "" then .error (.valueError "Daraja OAuth response did not include an access token.")
      else .ok token
    | _ => .error (.valueError "Daraja OAuth response did not include an access token.")
  | _ => .error (.attributeError "object has no attribute 'get'")

/-- A required credential, where it is configured. -/
def credential? (daraja : DarajaSettings) (name : CredentialName) : Option String :=
  (configured (daraja.modeCredential name)).or (configured (daraja.credential name))

/-- The number of attempts after the first. -/
def retries (daraja : DarajaSettings) : Nat := (max 0 daraja.darajaMaxRetries).toNat

/-- The token request from the n-th request on: what it comes to, and the number of the next one. -/
def tokenExchange (daraja : DarajaSettings) (server : DarajaServer) (n : Nat) :
    Except ClientExn String × Nat :=
  match credential? daraja .consumerKey, credential? daraja .consumerSecret with
  | some key, some secret =>
    let attempt := lastAttempt server (.oauthToken key secret) (retries daraja) n
    (attempt.1.read.bind accessToken, attempt.2)
  | _, _ => (.error (.valueError "a consumer credential is required"), n)

/-- What the exchange of a status query with Daraja comes to, in terms of the circuit and of Daraja's
answers: the circuit lets the query through, a token is granted, and the query itself is answered. -/
def exchange (env : Env) (daraja : DarajaSettings) (server : DarajaServer) (reference : String)
    (s : Ambient × DarajaState) : Except ClientExn PyValue :=
  match (s.2.breaker.beforeCall env s.1).1 with
  | .error e => .error e
  | .ok _ =>
    match tokenExchange daraja server s.2.requests with
    | (.error e, _) => .error e
    | (.ok token, n) =>
      (lastAttempt server (.transactionStatus token reference) (retries daraja) n).1.read

section Exchange

variable (env : Env) (daraja : DarajaSettings) (server : DarajaServer)

/-- How the query of the client ends. -/
def queryOutcome (reference : String) (s : Ambient × DarajaState) : Except ClientExn PyValue :=
  (Prog.run (darajaAnswer env server) (queryTransactionStatus daraja reference) s).1

theorem run_sleepBetweenRetries (s : Ambient × DarajaState) :
    Prog.run (darajaAnswer env server) (sleepBetweenRetries daraja) s = (.ok (), s) := by
  unfold sleepBetweenRetries
  split <;> rfl

theorem run_requestAttempts (request : HttpRequest) (left : Nat) (a : Ambient) (s : DarajaState) :
    Prog.run (darajaAnswer env server) (requestAttempts daraja request [502, 503, 504] left) (a, s) =
      ((lastAttempt server request left s.requests).1.result, a,
        { s with requests := (lastAttempt server request left s.requests).2 }) := by
  induction left generalizing s with
  | zero =>
    simp only [requestAttempts, run_call, darajaAnswer, lastAttempt]
    cases server.answer s.requests request <;> rfl
  | succ left ih =>
    simp only [requestAttempts, Prog.run_bind, Prog.run_attempt, run_call, darajaAnswer, lastAttempt]
    cases server.answer s.requests request with
    | timeout text => simp only [Prog.run_bind, run_sleepBetweenRetries, ih]
    | connectError text => simp only [Prog.run_bind, run_sleepBetweenRetries, ih]
    | otherError text => rfl
    | response response =>
      dsimp only
      split
      · simp only [Prog.run_bind, run_sleepBetweenRetries, ih]
      · rfl

/-- A request with retries, the status check and the decoding of its body, and what follows: the last
attempt decides. What is read from it goes to the rest of the program, or its exception ends the query. -/
theorem run_request {α : Type} (request : HttpRequest) (k : PyValue → Client α) (a : Ambient)
    (s : DarajaState) :
    let attempt := lastAttempt server request (retries daraja) s.requests
    Prog.run (darajaAnswer env server) (do
        let response ← requestWithRetries daraja request [502, 503, 504]
        raiseForStatus response
        let value ← json response
        k value) (a, s) =
      match attempt.1.read with
      | .ok value => Prog.run (darajaAnswer env server) (k value)
          (a, { s with requests := attempt.2 })
      | .error e => (.error e, a, { s with requests := attempt.2 }) := by
  intro attempt
  have hattempt : Prog.run (darajaAnswer env server)
      (requestWithRetries daraja request [502, 503, 504]) (a, s) =
        (attempt.1.result, a, { s with requests := attempt.2 }) :=
    run_requestAttempts env daraja server request (retries daraja) a s
  simp only [Prog.run_bind, hattempt]
  cases attempt.1 with
  | response answer =>
    dsimp only [HttpOutcome.result, HttpOutcome.read, raiseForStatus, json]
    by_cases hsuccess : answer.Successful
    · rw [if_pos hsuccess, if_pos hsuccess]
      cases answer.body <;> rfl
    · rw [if_neg hsuccess, if_neg hsuccess]
      rfl
  | _ => rfl

/-- Two ends of a query that `check_transaction_status` treats alike. -/
def Alike {α : Type} (r r' : Except ClientExn α) : Prop :=
  r = r' ∨ ∃ message message', r = .error (.valueError message) ∧ r' = .error (.valueError message')

theorem Alike.answered {r r' : Except ClientExn PyValue} (h : Alike r r') :
    Answered r ↔ Answered r' := by
  rcases h with rfl | ⟨message, message', rfl, rfl⟩
  · exact Iff.rfl
  · refine ⟨fun ⟨payload, h⟩ => ?_, fun ⟨payload, h⟩ => ?_⟩
    · cases h
    · cases h

theorem Alike.handled {r r' : Except ClientExn PyValue} (h : Alike r r') :
    Handled r ↔ Handled r' := by
  rcases h with rfl | ⟨message, message', rfl, rfl⟩
  · exact Iff.rfl
  · exact Iff.rfl

theorem run_getOauthToken (a : Ambient) (s : DarajaState) :
    ∃ r, Prog.run (darajaAnswer env server) (getOauthToken daraja) (a, s) =
        (r, a, { s with requests := (tokenExchange daraja server s.requests).2 }) ∧
      Alike r (tokenExchange daraja server s.requests).1 := by
  unfold getOauthToken tokenExchange credential? requiredCredential
  cases hkey : (configured (daraja.modeCredential .consumerKey)).or
      (configured (daraja.credential .consumerKey)) with
  | none => exact ⟨_, rfl, Or.inr ⟨_, _, rfl, rfl⟩⟩
  | some key =>
  cases hsecret : (configured (daraja.modeCredential .consumerSecret)).or
      (configured (daraja.credential .consumerSecret)) with
  | none => exact ⟨_, rfl, Or.inr ⟨_, _, rfl, rfl⟩⟩
  | some secret =>
    have hrun := run_request env daraja server (.oauthToken key secret) (fun value => do
      let payload ← items value
      match lookup payload "access_token" with
      | .str accessToken =>
        if accessToken = "" then
          .raise (.valueError "Daraja OAuth response did not include an access token.")
        else pure accessToken
      | _ => .raise (.valueError "Daraja OAuth response did not include an access token.")) a s
    refine ⟨_, hrun.trans ?_, Or.inl rfl⟩
    dsimp only
    cases (lastAttempt server (.oauthToken key secret) (retries daraja) s.requests).1.read with
    | error e => rfl
    | ok value =>
      cases value with
      | dict payload =>
        cases hlookup : lookup payload "access_token" with
        | str token =>
          simp only [items, Prog.run_bind, Prog.run_pure, Except.bind, accessToken, hlookup]
          split <;> rfl
        | _ =>
          simp only [items, Prog.run_bind, Prog.run_pure, Except.bind, accessToken, hlookup,
            Prog.run_raise]
      | _ => rfl

/-- The client's query ends as its exchange with Daraja does. -/
theorem queryOutcome_alike (reference : String) (s : Ambient × DarajaState) :
    Alike (queryOutcome env daraja server reference s)
      (exchange env daraja server reference s) := by
  unfold queryOutcome exchange queryTransactionStatus
  simp only [Prog.run_bind, run_call, darajaAnswer]
  cases (s.2.breaker.beforeCall env s.1).1 with
  | error e => exact Or.inl rfl
  | ok _ =>
    dsimp only
    obtain ⟨r, hrun, halike⟩ := run_getOauthToken env daraja server
      (s.2.breaker.beforeCall env s.1).2.1
      { s.2 with breaker := (s.2.breaker.beforeCall env s.1).2.2 }
    rw [hrun]
    dsimp only at halike ⊢
    cases htoken : tokenExchange daraja server s.2.requests with
    | mk r' n =>
    rw [htoken] at halike
    rcases halike with rfl | ⟨message, message', rfl, rfl⟩
    · cases r with
      | error e => exact Or.inl rfl
      | ok token =>
        have hquery := run_request env daraja server (.transactionStatus token reference)
          (fun payload => do
            call .recordSuccess
            pure payload)
          (s.2.breaker.beforeCall env s.1).2.1
          { s.2 with breaker := (s.2.breaker.beforeCall env s.1).2.2, requests := n }
        left
        simp only [Prog.run_bind, run_call, darajaAnswer] at hquery ⊢
        rw [hquery]
        cases (lastAttempt server (.transactionStatus token reference) (retries daraja) n).1.read <;>
          rfl
    · exact Or.inr ⟨_, _, rfl, rfl⟩

end Exchange

end RealDarajaClient

/-! ## The answer of the client -/
open RealDarajaClient

section Query

variable (env : Env) (daraja : DarajaSettings) (server : DarajaServer) (reference : String)
  (s : Ambient × DarajaState)

/-- The query is made, and Daraja answers it. -/
def Obtains : Prop := Queryable daraja ∧ Answered (exchange env daraja server reference s)

/-- The query is made and obtains no answer, and the client has a response for that. -/
structure Masked : Prop where
  queryable : Queryable daraja
  unanswered : ¬ Answered (exchange env daraja server reference s)
  handled : Handled (exchange env daraja server reference s)

/-- The client's answer to a status query. -/
def checkAnswer : Except ClientExn TransactionStatusResponse :=
  (Prog.run (darajaAnswer env server) (checkTransactionStatus daraja env.toRuntime reference) s).1

theorem httpErrorDescription_cases (response : HttpResponse) :
    (¬ (∀ value ∈ response.body, ∃ payload, value = .dict payload) ∧
      ∃ message, httpErrorDescription response = .raise (.attributeError message)) ∨
    ((∀ value ∈ response.body, ∃ payload, value = .dict payload) ∧
      ∃ reason, httpErrorDescription response = pure reason) := by
  unfold httpErrorDescription
  cases hbody : response.body with
  | none => exact Or.inr ⟨nofun, _, rfl⟩
  | some value =>
    cases value with
    | dict payload =>
      refine Or.inr ⟨fun value hvalue => ⟨payload, (Option.some.inj hvalue).symm⟩, ?_⟩
      dsimp only [items]
      show ∃ reason, (match lookup payload "errorMessage" with
        | .str errorMessage => _
        | _ => _ : Client String) = pure reason
      split
      · split
        · exact ⟨_, rfl⟩
        · exact ⟨_, rfl⟩
      · exact ⟨_, rfl⟩
    | _ =>
      refine Or.inl ⟨fun h => ?_, _, rfl⟩
      obtain ⟨payload, hpayload⟩ := h _ rfl
      cases hpayload

/-- A query without an answer makes the client raise, or report the status `failed`. -/
theorem checkAnswer_unanswered (unanswered : ¬ Obtains env daraja server reference s) :
    (¬ Masked env daraja server reference s ∧
      ∃ e, checkAnswer env daraja server reference s = .error e) ∨
    (Masked env daraja server reference s ∧
      ∃ response, checkAnswer env daraja server reference s = .ok response ∧
        response.status = "failed") := by
  rcases transactionStatusPayload_cases daraja with ⟨hqueryable, hpayload⟩ | ⟨hmissing, e, hpayload⟩
  case inr =>
    refine Or.inl ⟨fun h => hmissing h.queryable, e, ?_⟩
    simp only [checkAnswer, checkTransactionStatus, hpayload, Prog.run_bind, Prog.run_raise]
  have halike := queryOutcome_alike env daraja server reference s
  cases hquery : Prog.run (darajaAnswer env server) (queryTransactionStatus daraja reference) s with
  | mk outcome s' =>
  have houtcome : queryOutcome env daraja server reference s = outcome := congrArg Prod.fst hquery
  rw [houtcome] at halike
  have hunanswered : ¬ Answered outcome := fun h => unanswered ⟨hqueryable, halike.answered.mp h⟩
  have hmasked : Masked env daraja server reference s ↔ Handled outcome :=
    ⟨fun h => halike.handled.mpr h.handled, fun h =>
      ⟨hqueryable, fun h => unanswered ⟨hqueryable, h⟩, halike.handled.mp h⟩⟩
  rw [hmasked]
  simp only [checkAnswer, checkTransactionStatus, hpayload, Prog.run_bind, Prog.run_pure,
    Prog.run_attempt, hquery]
  cases outcome with
  | ok value =>
    cases value with
    | dict payload => exact absurd ⟨payload, rfl⟩ hunanswered
    | _ =>
      refine Or.inl ⟨fun h => ?_, _, rfl⟩
      obtain ⟨payload, hpayload⟩ := h
      cases hpayload
  | error e =>
    cases e with
    | status response =>
      rcases httpErrorDescription_cases response with
        ⟨hother, message, hmessage⟩ | ⟨hobject, reason, hreason⟩
      · refine Or.inl ⟨hother, .attributeError message, ?_⟩
        simp only [hmessage, Prog.run_bind, run_call, darajaAnswer, Prog.run_raise]
      · refine Or.inr ⟨hobject, ?_⟩
        simp only [hreason, Prog.run_bind, run_call, darajaAnswer, Prog.run_pure]
        exact ⟨_, rfl, rfl⟩
    | provider message category => exact Or.inl ⟨id, _, rfl⟩
    | attributeError message => exact Or.inl ⟨id, _, rfl⟩
    | _ => exact Or.inr ⟨trivial, _, rfl, rfl⟩

end Query

end MpesaMcp
