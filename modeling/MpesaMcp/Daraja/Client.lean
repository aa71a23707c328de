import MpesaMcp.Library.Retry
import MpesaMcp.Payments.Providers

/-!
# The Daraja client

`RealDarajaClient` is a program over HTTP requests and the operations of its circuit breaker. What the
peer answers to the n-th request of a run is `DarajaServer.answer`. A response whose body is no JSON
document has no body here; `raise_for_status` raises on every status outside of 2xx.

`_safe_raw_response`, the STK password and the timestamp only leave the process and are not modelled.
-/

set_option autoImplicit false

namespace MpesaMcp

open Library Python

/-! ## HTTP -/

/-- A response of the peer. -/
structure HttpResponse where
  statusCode : Nat
  /-- The parsed body, where it is JSON. -/
  body : Option PyValue
  /-- The text of the `HTTPStatusError` that `raise_for_status` raises for it. -/
  errorText : String := ""

/-- What comes of one request: a response, or an `httpx.HTTPError`. -/
inductive HttpOutcome
  | response (response : HttpResponse)
  | timeout (text : String)
  | connectError (text : String)
  | otherError (text : String)

/-- The requests the client makes. -/
inductive HttpRequest
  | oauthToken (consumerKey consumerSecret : String)
  | stkPush (token shortcode callbackUrl : String) (payment : InitiatePayment)
  | transactionStatus (token transactionReference : String)

/-- The exceptions inside the client. -/
inductive ClientExn
  /-- `httpx.HTTPStatusError`. -/
  | status (response : HttpResponse)
  /-- `httpx.TimeoutException`. -/
  | timeout (text : String)
  /-- `httpx.ConnectError`. -/
  | connectError (text : String)
  /-- Any other `httpx.HTTPError`. -/
  | otherHttp (text : String)
  /-- `CircuitBreakerOpenError`. -/
  | circuitOpen
  /-- `DarajaProviderError`. -/
  | provider (message errorCategory : String)
  | valueError (message : String)
  | attributeError (message : String)

/-- The exception a caller of the client sees. -/
def ClientExn.toExn : ClientExn → Exn
  | .status response => .other response.errorText
  | .timeout text => .other text
  | .connectError text => .other text
  | .otherHttp text => .other text
  | .circuitOpen =>
    .darajaProvider "Daraja provider circuit breaker is open." "provider_unavailable"
  | .provider message errorCategory => .darajaProvider message errorCategory
  | .valueError message => .valueError message
  | .attributeError message => .other message

/-! ## The circuit breaker -/

inductive CircuitState
  | closed
  | opened
  | halfOpen
deriving DecidableEq, Repr

/-- `DarajaCircuitBreaker`; its threshold is at least one. -/
structure DarajaCircuitBreaker where
  enabled : Bool := true
  failureThreshold : Int := 5
  recoverySeconds : ℚ := 60
  state : CircuitState := .closed
  failureCount : Nat := 0
  openedAt : Option ℚ := none

namespace DarajaCircuitBreaker

/-- The `state` property of an enabled breaker: reading it may half-open the circuit. -/
def readState (env : Env) (a : Ambient) (self : DarajaCircuitBreaker) :
    Ambient × DarajaCircuitBreaker :=
  match self.state, self.openedAt with
  | .opened, some openedAt =>
    let (now, a) := a.monotonic env
    if self.recoverySeconds ≤ now - openedAt then (a, { self with state := .halfOpen })
    else (a, self)
  | _, _ => (a, self)

/-- Reject calls while the circuit is open. -/
def beforeCall (env : Env) (a : Ambient) (self : DarajaCircuitBreaker) :
    Except ClientExn Unit × Ambient × DarajaCircuitBreaker :=
  if self.enabled then
    let (a, self) := self.readState env a
    if self.state = .opened then (.error .circuitOpen, a, self) else (.ok (), a, self)
  else (.ok (), a, self)

/-- Close the circuit after a successful provider call. -/
def recordSuccess (self : DarajaCircuitBreaker) : DarajaCircuitBreaker :=
  if self.enabled then { self with state := .closed, failureCount := 0, openedAt := none }
  else self

/-- Track provider failures and open after the configured threshold. -/
def recordFailure (env : Env) (a : Ambient) (self : DarajaCircuitBreaker) :
    Ambient × DarajaCircuitBreaker :=
  if self.enabled then
    let failureCount := self.failureCount + 1
    if max 1 self.failureThreshold ≤ failureCount then
      let (now, a) := a.monotonic env
      (a, { self with failureCount := failureCount, state := .opened, openedAt := some now })
    else (a, { self with failureCount := failureCount })
  else (a, self)

theorem forward_readState (env : Env) (a : Ambient) (self : DarajaCircuitBreaker) :
    a.Forward (self.readState env a).1 := by
  unfold readState
  split
  · dsimp only
    split <;> exact a.forward_monotonic env
  · exact .refl a

end DarajaCircuitBreaker

/-! ## Settings -/

inductive CredentialName
  | consumerKey
  | consumerSecret
  | passkey
  | shortcode
  | callbackUrl
deriving DecidableEq, Repr

/-- The name within the settings. -/
def CredentialName.value : CredentialName → String
  | .consumerKey => "consumer_key"
  | .consumerSecret => "consumer_secret"
  | .passkey => "passkey"
  | .shortcode => "shortcode"
  | .callbackUrl => "callback_url"

/-- The settings the client reads. -/
structure DarajaSettings where
  darajaMode : String := "mock"
  /-- `daraja_<name>`. -/
  credential : CredentialName → Option String := fun _ => none
  /-- `daraja_<mode>_<name>` of the configured mode. -/
  modeCredential : CredentialName → Option String := fun _ => none
  darajaInitiatorName : Option String := none
  darajaSecurityCredential : Option String := none
  darajaTransactionStatusResultUrl : Option String := none
  darajaTransactionStatusTimeoutUrl : Option String := none
  darajaMaxRetries : Int := 2
  darajaRetryBackoffSeconds : ℚ := 1 / 2

/-! ## The client -/

/-- Normalized response of a Daraja STK push request. -/
structure StkPushResponse where
  checkoutRequestId : String
  merchantRequestId : String
  responseCode : String
  responseDescription : String
  status : String := "pending"
  errorCategory : Option String := none
deriving DecidableEq

/-- Normalized response of a Daraja transaction status request. -/
structure TransactionStatusResponse where
  checkoutRequestId : String
  resultCode : String
  resultDescription : String
  status : String
  errorCategory : Option String := none
deriving DecidableEq

/-- One call of the client to its surroundings. -/
inductive DarajaCall
  | beforeCall
  | recordSuccess
  | recordFailure
  | request (request : HttpRequest)
  | sleep (seconds : ℚ)

abbrev DarajaCall.Answer : DarajaCall → Type
  | .beforeCall => Unit
  | .recordSuccess => Unit
  | .recordFailure => Unit
  | .request _ => HttpResponse
  | .sleep _ => Unit

namespace RealDarajaClient

/-- A method of the client. -/
abbrev Client (α : Type) := Prog ClientExn DarajaCall.Answer α

/-- Make one call. -/
def call (c : DarajaCall) : Client c.Answer := Prog.send c

@[simp] theorem run_call {σ : Type} (h : Handler ClientExn DarajaCall.Answer σ) (c : DarajaCall)
    (s : σ) : @Prog.run ClientExn DarajaCall DarajaCall.Answer (no_index c.Answer) σ h (call c) s =
      h c s := Prog.run_send h c s

/-- `response.raise_for_status()`. -/
def raiseForStatus (response : HttpResponse) : Client Unit :=
  if 200 ≤ response.statusCode ∧ response.statusCode < 300 then pure ()
  else .raise (.status response)

/-- `response.json()`. -/
def json (response : HttpResponse) : Client PyValue :=
  match response.body with
  | some value => pure value
  | none => .raise (.valueError "the body is not JSON")

/-- The items of a JSON object; any other document has no `get`. -/
def items (value : PyValue) : Client PyDict :=
  match value with
  | .dict items => pure items
  | _ => .raise (.attributeError "object has no attribute 'get'")

/-- `_error_category_for_status`. -/
def errorCategoryForStatus (statusCode : Nat) : String :=
  if statusCode = 400 then "validation_error"
  else if statusCode ∈ [401, 403] then "auth_error"
  else if statusCode = 408 then "timeout"
  else if statusCode = 429 then "rate_limited"
  else if statusCode ∈ [500, 502, 503, 504] then "provider_unavailable"
  else "unknown_error"

/-- `_http_error_description`. -/
def httpErrorDescription (response : HttpResponse) : Client String :=
  match response.body with
  | none => pure ("Daraja transaction status request failed: " ++ response.errorText)
  | some value => do
    let payload ← items value
    match lookup payload "errorMessage" with
    | .str errorMessage =>
      if errorMessage ≠ "" then pure errorMessage
      else pure ("Daraja transaction status request failed: " ++ response.errorText)
    | _ => pure ("Daraja transaction status request failed: " ++ response.errorText)

section Settings

variable (settings : DarajaSettings)

/-- A setting or credential that is configured with a text. -/
def configured (value : Option String) : Option String := value.filter fun text => decide (text ≠ "")

/-- `_required_credential`. -/
def requiredCredential (name : CredentialName) : Client String :=
  match (configured (settings.modeCredential name)).or (configured (settings.credential name)) with
  | some value => pure value
  | none => .raise (.valueError ("DARAJA_" ++ settings.darajaMode.toUpper ++ "_" ++ name.value.toUpper
      ++ " or DARAJA_" ++ name.value.toUpper ++ " is required for Daraja " ++ settings.darajaMode
      ++ " mode."))

/-- `_required_setting`. -/
def requiredSetting (name : String) (value : Option String) : Client String :=
  match configured value with
  | some value => pure value
  | none => .raise (.valueError (name ++ " is required for Daraja " ++ settings.darajaMode ++ " mode."))

/-- `_sleep_between_retries`. -/
def sleepBetweenRetries : Client Unit :=
  if 0 < settings.darajaRetryBackoffSeconds then call (.sleep settings.darajaRetryBackoffSeconds)
  else pure ()

/-- The loop of `_request_with_retries`, with the number of attempts left after this one. -/
def requestAttempts (request : HttpRequest) (retryHttpStatuses : List Nat) :
    Nat → Client HttpResponse
  | 0 => call (.request request)
  | left + 1 => do
    match ← (call (.request request)).attempt with
    | .error (.timeout _) =>
      sleepBetweenRetries settings
      requestAttempts request retryHttpStatuses left
    | .error (.connectError _) =>
      sleepBetweenRetries settings
      requestAttempts request retryHttpStatuses left
    | .error e => .raise e
    | .ok response =>
      if response.statusCode ∈ retryHttpStatuses then
        sleepBetweenRetries settings
        requestAttempts request retryHttpStatuses left
      else pure response

/-- `_request_with_retries`: `max(0, retries) + 1` attempts. -/
def requestWithRetries (request : HttpRequest) (retryHttpStatuses : List Nat) :
    Client HttpResponse :=
  requestAttempts settings request retryHttpStatuses (max 0 settings.darajaMaxRetries).toNat

/-- The loop of `_request_with_retries` as the source has it, over the calls of the HTTP client
(`Retrying.attempt`) and of `_sleep_between_retries` (`Retrying.pause`): the rest of the range, the
`last_exc`, and what comes `after` the loop. `requestWithRetries` is what it comes down to. -/
def requestLoop (retryHttpStatuses : List Nat) (attempts : Int)
    (after : Option ClientExn → Prog ClientExn (Retrying.Answer HttpResponse) HttpResponse) :
    List Nat → Option ClientExn → Prog ClientExn (Retrying.Answer HttpResponse) HttpResponse
  | [], lastExc => after lastExc
  | attempt :: range, lastExc => do
    let retried (e : ClientExn) : Prog ClientExn (Retrying.Answer HttpResponse) HttpResponse :=
      if (attempt : Int) < attempts - 1 then do
        Retrying.waitOnce
        requestLoop retryHttpStatuses attempts after range (some e)
      else .raise e
    match ← Retrying.tryOnce.attempt with
    | .error (.timeout text) => retried (.timeout text)
    | .error (.connectError text) => retried (.connectError text)
    | .error e => .raise e
    | .ok response =>
      if response.statusCode ∈ retryHttpStatuses ∧ (attempt : Int) < attempts - 1 then do
        Retrying.waitOnce
        requestLoop retryHttpStatuses attempts after range lastExc
      else pure response

/-- The two `raise` statements after the loop. -/
def afterLoop : Option ClientExn → Prog ClientExn (Retrying.Answer HttpResponse) HttpResponse
  | some lastExc => .raise lastExc
  | none => .raise (.provider "Daraja request failed." "unknown_error")

/-- `attempts`. -/
def attempts : Int := max 0 settings.darajaMaxRetries + 1

/-- `_get_oauth_token`. -/
def getOauthToken : Client String := do
  let consumerKey ← requiredCredential settings .consumerKey
  let consumerSecret ← requiredCredential settings .consumerSecret
  let response ← requestWithRetries settings (.oauthToken consumerKey consumerSecret) [502, 503, 504]
  raiseForStatus response
  let payload ← items (← json response)
  match lookup payload "access_token" with
  | .str accessToken =>
    if accessToken = "" then
      .raise (.valueError "Daraja OAuth response did not include an access token.")
    else pure accessToken
  | _ => .raise (.valueError "Daraja OAuth response did not include an access token.")

/-- The failure of a request is recorded before its error is built. -/
def failed {α : Type} (error : Client ClientExn) : Client α := do
  call .recordFailure
  .raise (← error)

/-- The first `try` of `initiate_stk_push`. -/
def stkPushToken : Client String := do
  match ← (getOauthToken settings).attempt with
  | .ok token => pure token
  | .error (.status response) =>
    failed ((.provider · (errorCategoryForStatus response.statusCode)) <$>
      httpErrorDescription response)
  | .error (.timeout _) => failed (pure (.provider "Daraja OAuth token request timed out." "timeout"))
  | .error (.connectError text) =>
    failed (pure (.provider ("Daraja OAuth token request failed: " ++ text) "provider_unavailable"))
  | .error (.otherHttp text) =>
    failed (pure (.provider ("Daraja OAuth token request failed: " ++ text) "provider_unavailable"))
  | .error e => .raise e

/-- The POST, its status check and its body. -/
def postStkPush (request : HttpRequest) : Client PyValue := do
  let response ← call (.request request)
  raiseForStatus response
  json response

/-- The second `try` of `initiate_stk_push`. -/
def stkPushPayload (request : HttpRequest) : Client PyValue := do
  match ← (postStkPush request).attempt with
  | .ok payload => pure payload
  | .error (.status response) =>
    failed ((.provider · (errorCategoryForStatus response.statusCode)) <$>
      httpErrorDescription response)
  | .error (.timeout _) => failed (pure (.provider "Daraja STK push request timed out." "timeout"))
  | .error (.connectError text) =>
    failed (pure (.provider ("Daraja STK push request failed: " ++ text) "provider_unavailable"))
  | .error (.otherHttp text) =>
    failed (pure (.provider ("Daraja STK push request failed: " ++ text) "provider_unavailable"))
  | .error (.valueError _) =>
    failed (pure (.provider "Daraja STK push response was not valid JSON." "unknown_error"))
  | .error e => .raise e

/-- Everything `initiate_stk_push` does up to the body of Daraja's answer. -/
def submitStkPush (payment : InitiatePayment) : Client PyValue := do
  call .beforeCall
  let token ← stkPushToken settings
  let shortcode ← requiredCredential settings .shortcode
  let _ ← requiredCredential settings .passkey
  let callbackUrl ← requiredCredential settings .callbackUrl
  stkPushPayload (.stkPush token shortcode callbackUrl payment)

variable (py : Runtime)

/-- `str(payload.get(key, ""))`. -/
def textOf (payload : PyDict) (key : String) : String :=
  (lookupD payload key (.str "")).toStr py.isPrintable

/-- The normalized response of a JSON object body. -/
def normalizeStkPush (payload : PyDict) : StkPushResponse where
  checkoutRequestId := textOf py payload "CheckoutRequestID"
  merchantRequestId := textOf py payload "MerchantRequestID"
  responseCode := textOf py payload "ResponseCode"
  responseDescription := textOf py payload "ResponseDescription"
  status := if textOf py payload "ResponseCode" = "0" then "pending" else "failed"
  errorCategory := if textOf py payload "ResponseCode" = "0" then none else some "unknown_error"

/-- Initiate a Safaricom Daraja STK push request. -/
def initiateStkPush (payment : InitiatePayment) : Client StkPushResponse := do
  let value ← submitStkPush settings payment
  call .recordSuccess
  let payload ← items value
  pure (normalizeStkPush py payload)

/-- `_failed_transaction_status_response`. -/
def failedTransactionStatusResponse (checkoutRequestId reason errorCategory : String) :
    TransactionStatusResponse where
  checkoutRequestId := checkoutRequestId
  resultCode := "FAILED"
  resultDescription := reason
  status := "failed"
  errorCategory := some errorCategory

/-- The settings `_transaction_status_payload` requires. -/
def transactionStatusPayload : Client Unit := do
  let _ ← requiredSetting settings "DARAJA_INITIATOR_NAME" settings.darajaInitiatorName
  let _ ← requiredSetting settings "DARAJA_SECURITY_CREDENTIAL" settings.darajaSecurityCredential
  let _ ← requiredCredential settings .shortcode
  let _ ← requiredSetting settings "DARAJA_TRANSACTION_STATUS_RESULT_URL"
    settings.darajaTransactionStatusResultUrl
  let _ ← requiredSetting settings "DARAJA_TRANSACTION_STATUS_TIMEOUT_URL"
    settings.darajaTransactionStatusTimeoutUrl

/-- The body of the `try` in `check_transaction_status`. -/
def queryTransactionStatus (checkoutRequestId : String) : Client PyValue := do
  call .beforeCall
  let token ← getOauthToken settings
  let response ← requestWithRetries settings (.transactionStatus token checkoutRequestId)
    [502, 503, 504]
  raiseForStatus response
  let payload ← json response
  call .recordSuccess
  pure payload

/-- A value that is neither empty nor zero nor `None`, as `or` tests it. -/
def truthy : PyValue → Bool
  | .none => false
  | .bool b => b
  | .int i => decide (i ≠ 0)
  | .float (.finite d) => decide (d.significand ≠ 0)
  | .float _ => true
  | .str s => decide (s ≠ "")
  | .list xs => !xs.isEmpty
  | .dict items => !items.isEmpty

/-- `a or b or text`, as a text. -/
def firstTruthy (a b : PyValue) (text : String) : String :=
  if truthy a then a.toStr py.isPrintable
  else if truthy b then b.toStr py.isPrintable
  else text

/-- Submit a Safaricom Daraja transaction status query. -/
def checkTransactionStatus (checkoutRequestId : String) : Client TransactionStatusResponse := do
  transactionStatusPayload settings
  let failure (reason errorCategory : String) : Client TransactionStatusResponse :=
    pure (failedTransactionStatusResponse checkoutRequestId reason errorCategory)
  match ← (queryTransactionStatus settings checkoutRequestId).attempt with
  | .error (.status response) =>
    call .recordFailure
    let reason ← httpErrorDescription response
    failure reason (errorCategoryForStatus response.statusCode)
  | .error .circuitOpen =>
    failure "Daraja provider circuit breaker is open." "provider_unavailable"
  | .error (.timeout text) =>
    call .recordFailure
    failure ("Daraja transaction status request timed out: " ++ text) "timeout"
  | .error (.connectError text) =>
    call .recordFailure
    failure ("Daraja transaction status request failed: " ++ text) "provider_unavailable"
  | .error (.otherHttp text) =>
    call .recordFailure
    failure ("Daraja transaction status request failed: " ++ text) "provider_unavailable"
  | .error (.valueError _) =>
    call .recordFailure
    failure "Daraja transaction status response was not valid JSON." "unknown_error"
  | .error e => .raise e
  | .ok value =>
    let payload ← items value
    let responseCode := textOf py payload "ResponseCode"
    pure {
      checkoutRequestId := checkoutRequestId
      resultCode := responseCode
      resultDescription := firstTruthy py (lookup payload "ResponseDescription")
        (lookup payload "errorMessage") "Daraja transaction status query failed."
      status := if responseCode = "0" then "query_accepted" else "failed"
      errorCategory := if responseCode = "0" then none else some "unknown_error" }

end Settings

end RealDarajaClient

/-! ## The client as a payment provider -/

/-- The peer: what it answers to the n-th request, and whether that request sends a push. -/
structure DarajaServer where
  answer : Nat → HttpRequest → HttpOutcome
  pushes : Nat → Bool

/-- The state of a client: its breaker and the number of requests made. -/
structure DarajaState where
  breaker : DarajaCircuitBreaker := {}
  requests : Nat := 0

/-- What the surroundings of a client answer. -/
def darajaAnswer (env : Env) (server : DarajaServer) :
    Handler ClientExn DarajaCall.Answer (Ambient × DarajaState)
  | .beforeCall, (a, s) =>
    let r := s.breaker.beforeCall env a
    (r.1, r.2.1, { s with breaker := r.2.2 })
  | .recordSuccess, (a, s) => (.ok (), a, { s with breaker := s.breaker.recordSuccess })
  | .recordFailure, (a, s) =>
    let r := s.breaker.recordFailure env a
    (.ok (), r.1, { s with breaker := r.2 })
  | .request request, (a, s) =>
    (match server.answer s.requests request with
      | .response response => .ok response
      | .timeout text => .error (.timeout text)
      | .connectError text => .error (.connectError text)
      | .otherError text => .error (.otherHttp text),
      a, { s with requests := s.requests + 1 })
  | .sleep _, (a, s) => (.ok (), a, s)

theorem forward_darajaAnswer (env : Env) (server : DarajaServer) (c : DarajaCall) (a : Ambient)
    (s : DarajaState) : a.Forward (darajaAnswer env server c (a, s)).2.1 := by
  cases c with
  | beforeCall =>
    simp only [darajaAnswer, DarajaCircuitBreaker.beforeCall]
    split
    · split <;> exact s.breaker.forward_readState env a
    · exact .refl a
  | recordFailure =>
    simp only [darajaAnswer, DarajaCircuitBreaker.recordFailure]
    split
    · split
      · exact a.forward_monotonic env
      · exact .refl a
    · exact .refl a
  | _ => exact .refl a

/-- A method of the client, run to its end; its exceptions leave it as the caller sees them. -/
def runClient {α : Type} (env : Env) (server : DarajaServer) (p : RealDarajaClient.Client α)
    (s : Ambient × DarajaState) : Except Exn α × Ambient × DarajaState :=
  let r := Prog.run (darajaAnswer env server) p s
  (r.1.mapError ClientExn.toExn, r.2)

theorem forward_runClient {α : Type} (env : Env) (server : DarajaServer)
    (p : RealDarajaClient.Client α) (a : Ambient) (s : DarajaState) :
    a.Forward (runClient env server p (a, s)).2.1 :=
  Prog.run_related (R := fun s s' => s.1.Forward s'.1) (fun s => .refl s.1) (fun _ _ _ => .trans)
    (fun c _ s => forward_darajaAnswer env server c s.1 s.2) (Prog.sends_true p) (a, s)

namespace DarajaPaymentProvider

/-- `initiate_payment` of the adapter. -/
def initiationResponse (response : StkPushResponse) : PaymentInitiationResponse where
  provider := "daraja"
  rail := "mpesa"
  checkoutRequestId := response.checkoutRequestId
  merchantRequestId := response.merchantRequestId
  providerTransactionId := some response.checkoutRequestId
  providerReference := some response.merchantRequestId
  responseCode := response.responseCode
  responseDescription := response.responseDescription
  status := response.status
  errorCategory := response.errorCategory

/-- `check_transaction_status` of the adapter. -/
def statusResponse (transactionReference : String) (response : TransactionStatusResponse) :
    PaymentStatusResponse where
  provider := "daraja"
  rail := "mpesa"
  checkoutRequestId := response.checkoutRequestId
  providerTransactionId := some response.checkoutRequestId
  providerReference := some transactionReference
  resultCode := response.resultCode
  resultDescription := response.resultDescription
  status := response.status
  errorCategory := response.errorCategory

/-- One method call. -/
def answer (settings : DarajaSettings) (server : DarajaServer) (env : Env) :
    Handler Exn PaymentProviderProtocol.Answer (Ambient × DarajaState)
  | .initiatePayment args, s =>
    let r := runClient env server
      (RealDarajaClient.initiateStkPush settings env.toRuntime args) s
    (r.1.map initiationResponse, r.2)
  | .checkTransactionStatus transactionReference, s =>
    let r := runClient env server
      (RealDarajaClient.checkTransactionStatus settings env.toRuntime transactionReference) s
    (r.1.map (statusResponse transactionReference), r.2)

end DarajaPaymentProvider

/-- Payment provider adapter backed by a `RealDarajaClient`. A call takes effect where one of its
requests sends a push. -/
def DarajaPaymentProvider (settings : DarajaSettings) (server : DarajaServer) :
    PaymentProvider DarajaState where
  answer := DarajaPaymentProvider.answer settings server
  takesEffect env args s :=
    let s' := (DarajaPaymentProvider.answer settings server env (.initiatePayment args) s).2
    (List.range' s.2.requests (s'.2.requests - s.2.requests)).any server.pushes
  forward env m a s := by
    cases m <;> exact forward_runClient env server _ a s

/-! ## The mock client -/

namespace MockDarajaClient

/-- `uuid4().hex`: the identifier without its dashes. -/
def hexOf (uuid : String) : String := String.ofList (uuid.toList.filter fun c => decide (c ≠ '-'))

/-- Return a fake successful STK push response. -/
def initiateStkPush (env : Env) (a : Ambient) : StkPushResponse × Ambient :=
  let (checkout, a) := a.uuid4 env
  let (merchant, a) := a.uuid4 env
  ({ checkoutRequestId := "ws_CO_" ++ hexOf checkout
     merchantRequestId := "mock_" ++ hexOf merchant
     responseCode := "0"
     responseDescription := "Success. Request accepted for processing." }, a)

/-- Return a fake successful transaction status response. -/
def checkTransactionStatus (checkoutRequestId : String) : TransactionStatusResponse where
  checkoutRequestId := checkoutRequestId
  resultCode := "0"
  resultDescription := "The service request is processed successfully."
  status := "completed"

/-- One call of the adapter over the mock client. -/
def answer (env : Env) : Handler Exn PaymentProviderProtocol.Answer (Ambient × Unit)
  | .initiatePayment _, s =>
    let (response, a) := initiateStkPush env s.1
    (.ok (DarajaPaymentProvider.initiationResponse response), a, ())
  | .checkTransactionStatus reference, s =>
    (.ok (DarajaPaymentProvider.statusResponse reference (checkTransactionStatus reference)), s)

end MockDarajaClient

/-- The adapter over the mock client; every call of it stands for an accepted push. -/
def MockDarajaPaymentProvider : PaymentProvider Unit where
  answer := MockDarajaClient.answer
  takesEffect _ _ _ := true
  forward env m a _ := by
    cases m with
    | initiatePayment args => exact (a.forward_uuid4 env).trans (Ambient.forward_uuid4 env _)
    | checkTransactionStatus reference => exact .refl a

end MpesaMcp
