import MpesaMcp.App.Config
import MpesaMcp.Callbacks.Routes

/-!
# The container factory

`AppContainer.mock` reads a mode of the settings for each component and builds what it names. The
constructors of other packages are parameters (`Outside`): what each of them raises, if anything. An
exception of the factory itself is kept apart from theirs.
-/

set_option autoImplicit false

namespace MpesaMcp

open Library Python

/-- The Daraja client validates its credentials when it is made for production. -/
def RealDarajaClient.validateProductionCredentials (settings : DarajaSettings) :
    RealDarajaClient.Client Unit := do
  let _ ← requiredCredential settings .consumerKey
  let _ ← requiredCredential settings .consumerSecret
  let _ ← requiredCredential settings .passkey
  let _ ← requiredCredential settings .shortcode
  let _ ← requiredCredential settings .callbackUrl

/-- `RealDarajaClient.__init__` after its HTTP client is made. -/
def RealDarajaClient.init (settings : DarajaSettings) : RealDarajaClient.Client Unit :=
  if settings.darajaMode = "production" then validateProductionCredentials settings else pure ()

/-- The breaker of a new client. -/
def RuntimeSettings.newBreaker (settings : RuntimeSettings) : DarajaCircuitBreaker where
  enabled := settings.darajaCircuitBreakerEnabled
  failureThreshold := settings.darajaCircuitBreakerFailureThreshold
  recoverySeconds := settings.darajaCircuitBreakerRecoverySeconds

/-- What the constructors of other packages raise. -/
structure Outside where
  databaseEngine : String → Option Exn
  redis : String → Option Exn
  httpClient : Option Exn

/-- An exception of the factory. -/
inductive StartupExn
  /-- A `ValueError` of the factory or of the Daraja client. -/
  | own (e : Exn)
  /-- Raised by a constructor of another package. -/
  | outside (e : Exn)

/-- A storage or limiter kind that a mode names. -/
inductive Backend
  | memory
  | remote
deriving DecidableEq

/-- The components whose kind a setting selects. -/
structure Components where
  transactionRepository : Backend
  auditRepository : Backend
  rateLimiter : Backend
  replayProtection : Backend
  callbackSourceVerifier : CallbackSourceVerifier
  /-- Whether the Daraja client is the real one. -/
  realDarajaClient : Bool
  /-- Whether the payment provider is the adapter over the Daraja client. -/
  darajaProvider : Bool

namespace StartupFactory

variable (outside : Outside) (settings : RuntimeSettings)

/-- Call a constructor of another package. -/
def construct (raised : Option Exn) : Except StartupExn Unit :=
  match raised with
  | none => .ok ()
  | some e => .error (.outside e)

/-- `_create_session_factory`. -/
def createSessionFactory : Except StartupExn (Option Unit) :=
  if settings.storageMode ≠ "postgres" then .ok none
  else (construct (outside.databaseEngine settings.databaseUrl)).map some

/-- `_create_transaction_repository` and `_create_audit_repository`, which differ in one message. -/
def createRepository (missing : String) (sessionFactory : Option Unit) :
    Except StartupExn Backend :=
  if settings.storageMode = "memory" then .ok .memory
  else if settings.storageMode = "postgres" then
    match sessionFactory with
    | none => .error (.own (.valueError missing))
    | some _ => .ok .remote
  else .error (.own (.valueError "STORAGE_MODE must be one of: memory, postgres."))

/-- `_create_transaction_repository`. -/
def createTransactionRepository : Option Unit → Except StartupExn Backend :=
  createRepository settings "Postgres storage requires a session factory."

/-- `_create_audit_repository`. -/
def createAuditRepository : Option Unit → Except StartupExn Backend :=
  createRepository settings "Postgres audit storage requires a session factory."

/-- A component that is kept in memory or in Redis. -/
def createRedisBacked (mode unknown : String) : Except StartupExn Backend :=
  if mode = "memory" then .ok .memory
  else if mode = "redis" then (construct (outside.redis settings.redisUrl)).map fun _ => .remote
  else .error (.own (.valueError unknown))

/-- `_create_rate_limiter`. -/
def createRateLimiter : Except StartupExn Backend :=
  createRedisBacked outside settings settings.rateLimitMode
    "RATE_LIMIT_MODE must be one of: memory, redis."

/-- `_create_replay_protection`. -/
def createReplayProtection : Except StartupExn Backend :=
  createRedisBacked outside settings settings.callbackReplayMode
    "CALLBACK_REPLAY_MODE must be one of: memory, redis."

/-- `_create_callback_source_verifier`. -/
def createCallbackSourceVerifier : Except StartupExn CallbackSourceVerifier :=
  if settings.callbackSourceVerificationMode = "development" then .ok .development
  else if settings.callbackSourceVerificationMode = "strict_block" then .ok .strictBlock
  else if settings.callbackSourceVerificationMode = "trusted_proxy" then
    match settings.trustedProxySharedSecret with
    | none =>
      .error (.own (.valueError "TRUSTED_PROXY_SHARED_SECRET is required for trusted_proxy mode."))
    | some secret => .ok (.trustedProxy settings.trustedProxyHeaderName secret)
  else .error (.own (.valueError ("CALLBACK_SOURCE_VERIFICATION_MODE must be one of: " ++
    "development, trusted_proxy, strict_block.")))

variable (env : Env) (server : DarajaServer)

/-- `_create_daraja_client`: whether the client is the real one. -/
def createDarajaClient (a : Ambient) : Except StartupExn Bool :=
  if settings.darajaMode = "mock" then .ok false
  else if settings.darajaMode ∈ ["sandbox", "production"] then do
    construct outside.httpClient
    match (runClient env server (RealDarajaClient.init settings.daraja)
      (a, { breaker := settings.newBreaker })).1 with
    | .ok () => .ok true
    | .error e => .error (.own e)
  else .error (.own (.valueError "DARAJA_MODE must be one of: mock, sandbox, production."))

/-- `_create_payment_provider`: whether it is the adapter over the Daraja client. -/
def createPaymentProvider : Except StartupExn Bool :=
  if settings.paymentProvider = "daraja" then .ok true
  else if settings.paymentProvider = "airtel_mock" then .ok false
  else .error (.own (.valueError "PAYMENT_PROVIDER must be one of: daraja, airtel_mock."))

/-- `AppContainer.mock`, as far as a setting selects what it builds. -/
def mock (a : Ambient) : Except StartupExn Components := do
  let sessionFactory ← createSessionFactory outside settings
  let transactionRepository ← createTransactionRepository settings sessionFactory
  let auditRepository ← createAuditRepository settings sessionFactory
  let rateLimiter ← createRateLimiter outside settings
  let replayProtection ← createReplayProtection outside settings
  let callbackSourceVerifier ← createCallbackSourceVerifier settings
  let realDarajaClient ← createDarajaClient outside settings env server a
  let darajaProvider ← createPaymentProvider settings
  return {
    transactionRepository, auditRepository, rateLimiter, replayProtection, callbackSourceVerifier,
    realDarajaClient, darajaProvider }

end StartupFactory

end MpesaMcp
