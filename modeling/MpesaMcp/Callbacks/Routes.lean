import MpesaMcp.Callbacks.Replay

/-!
# The STK callback route

The route checks a shared secret, then the source of the request, then the replay key, and only then
hands the payload to the handler. The replay key is stored by the check itself.
-/

set_option autoImplicit false

namespace MpesaMcp

open Library Python

/-- The settings the callback route reads. -/
structure CallbackSettings where
  callbackSharedSecret : Option String := none
  callbackReplayProtectionEnabled : Bool := true
  callbackReplayWindowSeconds : Int := 600

/-- The callback source verifiers. -/
inductive CallbackSourceVerifier
  | development
  | strictBlock
  | trustedProxy (headerName sharedSecret : String)

/-- Decision returned by callback source verification. -/
structure CallbackSourceVerificationDecision where
  allowed : Bool
  reason : String

/-- What the route answers with. -/
inductive CallbackResponse
  | processed (result : CallbackProcessingResult)
  /-- `JSONResponse(status_code, {"status", "success": False, "reason"})`. -/
  | json (statusCode : Nat) (status reason : String)
  /-- `HTTPException(status_code, detail)`. -/
  | httpException (statusCode : Nat) (detail : String)
deriving DecidableEq

/-- `secrets.compare_digest` of two texts. -/
def compareDigest (a b : String) : Except Exn Bool :=
  if a.toList.all (fun c => decide (c.toNat < 128)) && b.toList.all (fun c => decide (c.toNat < 128))
  then .ok (decide (a = b))
  else .error (.other "comparing strings with non-ASCII characters is not supported")

/-- The headers of a request, by lower-case name. -/
abbrev Headers := List (String × String)

/-- `headers.get(name)`. -/
def headerValue (headers : Headers) (name : String) : Option String :=
  (headers.find? fun header => decide (header.1 = name)).map Prod.snd

/-- `verify` of each verifier. -/
def CallbackSourceVerifier.verify (headers : Headers) :
    CallbackSourceVerifier → Except Exn CallbackSourceVerificationDecision
  | .development => .ok ⟨true, "Development callback source verifier allowed request."⟩
  | .strictBlock => .ok ⟨false, "Callback source verification is in strict block mode."⟩
  | .trustedProxy headerName sharedSecret =>
    match headerValue headers headerName.toLower with
    | none => .ok ⟨false, "Trusted callback proxy header is missing."⟩
    | some providedSecret =>
      match compareDigest providedSecret sharedSecret with
      | .error e => .error e
      | .ok false => .ok ⟨false, "Trusted callback proxy header is invalid."⟩
      | .ok true => .ok ⟨true, "Trusted callback proxy header validated."⟩

/-- One delivery of a callback. -/
structure CallbackRequest where
  callbackSecret : Option String := none
  headers : Headers := []
  payload : PyDict

/-- The configuration of the route. -/
structure CallbackRoute where
  settings : CallbackSettings
  sourceVerifier : CallbackSourceVerifier

namespace CallbackRoute

/-- An event about a rejected delivery. -/
def logRejection (eventType reason : String) : App Unit :=
  ask (.logEvent ⟨eventType, [("reason", .str reason)], some "mpesa_callback"⟩)

/-- `validate_callback_secret`: the response that ends the request, if any. -/
def validateCallbackSecret (self : CallbackRoute) (callbackSecret : Option String) :
    App (Option CallbackResponse) :=
  match self.settings.callbackSharedSecret with
  | none => pure none
  | some expectedSecret =>
    if expectedSecret = "" then pure none
    else do
      let valid ← match callbackSecret with
        | none => pure false
        | some secret => StkCallbackHandler.lift (compareDigest secret expectedSecret)
      if valid then pure none
      else do
        logRejection "stk_callback_rejected"
          (if callbackSecret.isNone then "Missing callback shared secret."
            else "Invalid callback shared secret.")
        pure (some (.httpException 401 "Invalid callback credentials."))

/-- `reject_untrusted_callback_source_if_needed`. -/
def rejectUntrustedCallbackSourceIfNeeded (self : CallbackRoute) (headers : Headers) :
    App (Option CallbackResponse) := do
  let decision ← StkCallbackHandler.lift (self.sourceVerifier.verify headers)
  if decision.allowed then pure none
  else do
    logRejection "stk_callback_source_rejected" decision.reason
    pure (some (.json 403 "callback_source_rejected" decision.reason))

/-- `reject_duplicate_callback_if_needed`. -/
def rejectDuplicateCallbackIfNeeded (py : Runtime) (self : CallbackRoute) (payload : PyDict) :
    App (Option CallbackResponse) :=
  if self.settings.callbackReplayProtectionEnabled then do
    let check := ask (.checkAndStore (buildCallbackReplayKey py payload)
      self.settings.callbackReplayWindowSeconds)
    match ← check.attempt with
    | .error (.infrastructureUnavailable message) =>
      logRejection "stk_callback_replay_unavailable" message
      pure (some (.json 503 "replay_protection_unavailable"
        "Callback replay protection unavailable."))
    | .error e => .raise e
    | .ok decision =>
      if decision.allowed then pure none
      else do
        ask (.logEvent ⟨"stk_callback_duplicate",
          [("reason", .str decision.reason), ("replay_key", .str decision.key)],
          some "mpesa_callback"⟩)
        pure (some (.json 409 "duplicate_callback" decision.reason))
  else pure none

/-- The call of the handler, with its infrastructure failures answered. -/
def processCallback (py : Runtime) (payload : PyDict) : App CallbackResponse := do
  match ← (StkCallbackHandler.process py payload).attempt with
  | .ok result => pure (.processed result)
  | .error (.infrastructureUnavailable message) =>
    logRejection "stk_callback_infrastructure_unavailable" message
    pure (.json 503 "infrastructure_unavailable" message)
  | .error e => .raise e

/-- `handle_stk_callback`, once the request is authenticated. -/
def handleStkCallback (py : Runtime) (self : CallbackRoute) (headers : Headers) (payload : PyDict) :
    App CallbackResponse := do
  match ← self.rejectUntrustedCallbackSourceIfNeeded headers with
  | some response => pure response
  | none =>
    match ← self.rejectDuplicateCallbackIfNeeded py payload with
    | some response => pure response
    | none => processCallback py payload

/-- `POST /callbacks/mpesa/stk`: the secret is validated before the route runs. -/
def post (py : Runtime) (self : CallbackRoute) (request : CallbackRequest) :
    App CallbackResponse := do
  match ← self.validateCallbackSecret request.callbackSecret with
  | some response => pure response
  | none => self.handleStkCallback py request.headers request.payload

end CallbackRoute

end MpesaMcp
