import MpesaMcp.App.Startup
import MpesaMcp.Laws.DarajaCalls

/-!
# What accepted settings promise

Accepted settings are meant to build a container whose Daraja client misses no setting later on. The
checks leave out the modes of storage, payment provider, Daraja, rate limit and replay protection, the
credentials of the sandbox, and the settings of a status query. `startup_sound_iff` says that nothing
else is missing.
-/

set_option autoImplicit false

namespace MpesaMcp

open Library Python

/-! ## Later calls of the client -/

/-- A call of `RealDarajaClient`. -/
inductive ClientCall
  | initiateStkPush (payment : InitiatePayment)
  | checkTransactionStatus (checkoutRequestId : String)

/-- One call of the client. -/
def clientStep (env : Env) (server : DarajaServer) (daraja : DarajaSettings) :
    ClientCall → Ambient × DarajaState → Except Exn Unit × Ambient × DarajaState
  | .initiateStkPush payment, s =>
    let r := runClient env server (RealDarajaClient.initiateStkPush daraja env.toRuntime payment) s
    (r.1.map fun _ => (), r.2)
  | .checkTransactionStatus checkoutRequestId, s =>
    let r := runClient env server
      (RealDarajaClient.checkTransactionStatus daraja env.toRuntime checkoutRequestId) s
    (r.1.map fun _ => (), r.2)

/-- The text for a missing setting or credential. -/
def requiredText (daraja : DarajaSettings) (name : String) : String :=
  name ++ " is required for Daraja " ++ daraja.darajaMode ++ " mode."

/-- A `ValueError` for a missing setting or credential. -/
def MissesSetting (daraja : DarajaSettings) (e : Exn) : Prop :=
  ∃ name, e = .valueError (requiredText daraja name)

/-- The factory raises no `ValueError` of its own, and no later call of the real client one for a missing
setting, whatever the rest of the world does. -/
def StartupSound (settings : RuntimeSettings) : Prop :=
  ∀ (outside : Outside) (env : Env) (server : DarajaServer) (a : Ambient),
    (∀ e, StartupFactory.mock outside settings env server a ≠ .error (.own e)) ∧
    ∀ components, StartupFactory.mock outside settings env server a = .ok components →
      components.realDarajaClient = true → ∀ (a' : Ambient) (calls : List ClientCall),
        ∀ st ∈ trace (clientStep env server settings.daraja)
          (a', { breaker := settings.newBreaker }) calls,
          ∀ e, st.output = .error e → ¬ MissesSetting settings.daraja e

/-- What the checks leave out. -/
structure Complete (settings : RuntimeSettings) : Prop where
  storage : settings.storageMode ∈ ["memory", "postgres"]
  rateLimit : settings.rateLimitMode ∈ ["memory", "redis"]
  replay : settings.callbackReplayMode ∈ ["memory", "redis"]
  daraja : settings.darajaMode ∈ ["mock", "sandbox", "production"]
  provider : settings.paymentProvider ∈ ["daraja", "airtel_mock"]
  /-- In the sandbox, every credential is set, of the mode or in general. -/
  credentials : settings.darajaMode = "sandbox" → ∀ name,
    (RealDarajaClient.configured (settings.darajaSandboxCredential name)).isSome ∨
      (RealDarajaClient.configured (settings.darajaCredential name)).isSome
  /-- For a real client, the settings of a status query are set. -/
  statusQuery : settings.darajaMode ∈ ["sandbox", "production"] →
    ∀ value ∈ [settings.darajaInitiatorName, settings.darajaSecurityCredential,
      settings.darajaTransactionStatusResultUrl, settings.darajaTransactionStatusTimeoutUrl],
      (RealDarajaClient.configured value).isSome

namespace RealDarajaClient

/-! ## What the client raises -/

section Client

variable {env : Env} {daraja : DarajaSettings} {server : DarajaServer}

/-- Not the text for a missing setting. -/
def Present (daraja : DarajaSettings) (e : ClientExn) : Prop :=
  ∀ name, e ≠ .valueError (requiredText daraja name)

/-- The end of the text for a missing setting. -/
theorem requiredText_end (name : String) :
    (requiredText daraja name).toList.reverse.take 6 = " mode.".toList.reverse := by
  simp only [requiredText, String.toList_append, List.reverse_append]
  exact List.take_left' rfl

/-- Texts that end otherwise are not the text for a missing setting, whatever the name in it. -/
theorem present_valueError {text : String} (h : text.toList.reverse.take 6 ≠ " mode.".toList.reverse) :
    Present daraja (.valueError text) := by
  intro name heq
  cases heq
  exact h (requiredText_end name)

/-- A credential is there and is read, or it is not and the client raises the text that names it; the
two go together, whatever the mode. -/
theorem requiredCredential_cases (name : CredentialName) :
    (∃ value, credential? daraja name = some value ∧ requiredCredential daraja name = pure value) ∨
    (credential? daraja name = none ∧ ∃ subject,
      requiredCredential daraja name = .raise (.valueError (requiredText daraja subject))) := by
  unfold requiredCredential
  cases hvalue : credential? daraja name with
  | some value =>
    unfold credential? at hvalue
    exact Or.inl ⟨value, rfl, by rw [hvalue]⟩
  | none =>
    unfold credential? at hvalue
    refine Or.inr ⟨rfl, "DARAJA_" ++ daraja.darajaMode.toUpper ++ "_" ++ name.value.toUpper ++
      " or DARAJA_" ++ name.value.toUpper, ?_⟩
    rw [hvalue]
    rfl

/-- A setting of the status query is there and is read, or it is not and the client raises the text
that names it. -/
theorem requiredSetting_cases (name : String) (setting : Option String) :
    (∃ value, configured setting = some value ∧ requiredSetting daraja name setting = pure value) ∨
    (configured setting = none ∧
      requiredSetting daraja name setting = .raise (.valueError (requiredText daraja name))) := by
  unfold requiredSetting
  cases hvalue : configured setting with
  | some value => exact Or.inl ⟨value, rfl, rfl⟩
  | none => exact Or.inr ⟨rfl, rfl⟩

/-- Where the settings of a status query are read, they are all there, or one is missed. -/
theorem transactionStatusPayload_reads :
    (Queryable daraja ∧ transactionStatusPayload daraja = pure ()) ∨
    (¬ Queryable daraja ∧ ∃ subject,
      transactionStatusPayload daraja = .raise (.valueError (requiredText daraja subject))) := by
  rcases transactionStatusPayload_cases daraja with h | ⟨hmissing, -⟩
  · exact Or.inl h
  refine Or.inr ⟨hmissing, ?_⟩
  unfold transactionStatusPayload
  rcases requiredSetting_cases "DARAJA_INITIATOR_NAME" daraja.darajaInitiatorName with
    ⟨name, hname, h⟩ | ⟨-, h⟩
  case inr => exact ⟨_, by rw [h]; rfl⟩
  rw [h]
  rcases requiredSetting_cases "DARAJA_SECURITY_CREDENTIAL" daraja.darajaSecurityCredential with
    ⟨security, hsecurity, h⟩ | ⟨-, h⟩
  case inr => exact ⟨_, by rw [h]; rfl⟩
  rw [h]
  rcases @requiredCredential_cases daraja .shortcode with
    ⟨shortcode, hshortcode, h⟩ | ⟨-, subject, h⟩
  case inr => exact ⟨_, by rw [h]; rfl⟩
  rw [h]
  rcases requiredSetting_cases "DARAJA_TRANSACTION_STATUS_RESULT_URL"
    daraja.darajaTransactionStatusResultUrl with ⟨result, hresult, h⟩ | ⟨-, h⟩
  case inr => exact ⟨_, by rw [h]; rfl⟩
  rw [h]
  rcases requiredSetting_cases "DARAJA_TRANSACTION_STATUS_TIMEOUT_URL"
    daraja.darajaTransactionStatusTimeoutUrl with ⟨timeout, htimeout, h⟩ | ⟨-, h⟩
  case inr => exact ⟨_, by rw [h]; rfl⟩
  refine absurd ⟨?_, ?_, ?_, ?_, ?_⟩ hmissing
  · rw [hname]; rfl
  · rw [hsecurity]; rfl
  · exact Option.isSome_iff_exists.mpr ⟨shortcode, hshortcode⟩
  · rw [hresult]; rfl
  · rw [htimeout]; rfl

/-- No request is answered by a `ValueError`. -/
theorem present_answer (c : DarajaCall) (s : Ambient × DarajaState) (e : ClientExn)
    (h : (darajaAnswer env server c s).1 = .error e) : Present daraja e := by
  cases c with
  | beforeCall =>
    rcases beforeCall_cases env s.1 s.2.breaker with hok | hopen
    · cases hok.symm.trans h
    · cases hopen.symm.trans h
      intro _ hvalue
      cases hvalue
  | request request =>
    simp only [darajaAnswer] at h
    cases hanswer : server.answer s.2.requests request <;> rw [hanswer] at h <;> cases h
    all_goals
      intro _ hvalue
      cases hvalue
  | _ => cases h

/-- A method of the client that never misses a setting. -/
abbrev Provided {α : Type} (env : Env) (daraja : DarajaSettings) (server : DarajaServer)
    (p : Client α) : Prop :=
  p.Raises (darajaAnswer env server) (Present daraja)

theorem provided_call (c : DarajaCall) : Provided env daraja server (call c) :=
  Prog.raises_send (present_answer c)

/-- By induction on the attempts that are left: what an attempt raises is an answer of the server, and
the text for a missing setting is none. -/
theorem provided_requestAttempts (request : HttpRequest) (retryHttpStatuses : List Nat) (left : Nat) :
    Provided env daraja server (requestAttempts daraja request retryHttpStatuses left) := by
  induction left with
  | zero => exact provided_call _
  | succ left ih =>
    have hsleep : Provided env daraja server (sleepBetweenRetries daraja) := by
      unfold sleepBetweenRetries
      split
      · exact provided_call _
      · exact Prog.raises_pure _
    have hagain := hsleep.bind fun _ => ih
    refine (provided_call _).attempt_bind (fun response => ?_) fun e he => ?_
    · dsimp only
      split
      · exact hagain
      · exact Prog.raises_pure _
    · cases e with
      | timeout text => exact hagain
      | connectError text => exact hagain
      | _ => exact Prog.raises_raise he

theorem provided_raiseForStatus (response : HttpResponse) :
    Provided env daraja server (raiseForStatus response) := by
  unfold raiseForStatus
  split
  · exact Prog.raises_pure _
  · exact Prog.raises_raise fun _ => nofun

theorem provided_json (response : HttpResponse) : Provided env daraja server (json response) := by
  unfold json
  split
  · exact Prog.raises_pure _
  · exact Prog.raises_raise (present_valueError (by decide))

theorem provided_items (value : PyValue) : Provided env daraja server (items value) := by
  cases value with
  | dict payload => exact Prog.raises_pure _
  | _ => exact Prog.raises_raise fun _ => nofun

theorem provided_httpErrorDescription (response : HttpResponse) :
    Provided env daraja server (httpErrorDescription response) := by
  unfold httpErrorDescription
  split
  · exact Prog.raises_pure _
  · refine (provided_items _).bind fun payload => ?_
    split
    · split
      · exact Prog.raises_pure _
      · exact Prog.raises_pure _
    · exact Prog.raises_pure _

/-- A failure of a known category carries a message of Daraja's, made from its response. -/
theorem provided_failed {α : Type} (message : Client String) (category : String)
    (hmessage : Provided env daraja server message) :
    Provided env daraja server (failed ((.provider · category) <$> message) : Client α) := by
  refine (provided_call _).bind fun _ => ?_
  show Provided env daraja server ((message >>= fun text => pure (.provider text category)) >>=
    fun e => (.raise e : Client α))
  rw [Prog.bind_assoc]
  exact hmessage.bind fun text => Prog.raises_raise fun _ => nofun

/-- Every credential is configured. -/
def AllCredentials (daraja : DarajaSettings) : Prop := ∀ name, (credential? daraja name).isSome

/-- Where all credentials are set, reading one never raises. -/
theorem AllCredentials.read (all : AllCredentials daraja) (name : CredentialName) :
    ∃ value, requiredCredential daraja name = pure value := by
  rcases @requiredCredential_cases daraja name with ⟨value, -, h⟩ | ⟨hnone, -⟩
  · exact ⟨value, h⟩
  · have hsome := all name
    rw [hnone] at hsome
    cases hsome

theorem provided_requiredCredential (all : AllCredentials daraja) (name : CredentialName) :
    Provided env daraja server (requiredCredential daraja name) := by
  obtain ⟨value, h⟩ := all.read name
  rw [h]
  exact Prog.raises_pure _

/-- The exchange of the token reads two credentials, the only settings that it can miss. -/
theorem provided_getOauthToken (all : AllCredentials daraja) :
    Provided env daraja server (getOauthToken daraja) := by
  refine (provided_requiredCredential all _).bind fun key => ?_
  refine (provided_requiredCredential all _).bind fun secret => ?_
  refine (provided_requestAttempts _ _ _).bind fun response => ?_
  refine (provided_raiseForStatus response).bind fun _ => ?_
  refine (provided_json response).bind fun value => ?_
  refine (provided_items value).bind fun payload => ?_
  split
  · split
    · exact Prog.raises_raise (present_valueError (by decide))
    · exact Prog.raises_pure _
  · exact Prog.raises_raise (present_valueError (by decide))

/-- The token of a push fails as the exchange does, under another exception. -/
theorem provided_stkPushToken (all : AllCredentials daraja) :
    Provided env daraja server (stkPushToken daraja) := by
  refine (provided_getOauthToken all).attempt_bind (fun token => Prog.raises_pure _) fun e he => ?_
  cases e with
  | status response => exact provided_failed _ _ (provided_httpErrorDescription response)
  | timeout text => exact provided_failed (pure _) _ (Prog.raises_pure _)
  | connectError text => exact provided_failed (pure _) _ (Prog.raises_pure _)
  | otherHttp text => exact provided_failed (pure _) _ (Prog.raises_pure _)
  | _ => exact Prog.raises_raise he

/-- Sending the push reads no setting: its payload was built before. -/
theorem provided_stkPushPayload (request : HttpRequest) :
    Provided env daraja server (stkPushPayload request) := by
  have hpost : Provided env daraja server (postStkPush request) :=
    (provided_call _).bind fun response =>
      (provided_raiseForStatus response).bind fun _ => provided_json response
  refine hpost.attempt_bind (fun payload => Prog.raises_pure _) fun e he => ?_
  cases e with
  | status response => exact provided_failed _ _ (provided_httpErrorDescription response)
  | timeout text => exact provided_failed (pure _) _ (Prog.raises_pure _)
  | connectError text => exact provided_failed (pure _) _ (Prog.raises_pure _)
  | otherHttp text => exact provided_failed (pure _) _ (Prog.raises_pure _)
  | valueError text => exact provided_failed (pure _) _ (Prog.raises_pure _)
  | _ => exact Prog.raises_raise he

/-- With all its credentials, a push misses no setting. -/
theorem provided_initiateStkPush (all : AllCredentials daraja) (py : Runtime)
    (payment : InitiatePayment) :
    Provided env daraja server (initiateStkPush daraja py payment) := by
  have hsubmit : Provided env daraja server (submitStkPush daraja payment) := by
    refine (provided_call _).bind fun _ => ?_
    refine (provided_stkPushToken all).bind fun token => ?_
    refine (provided_requiredCredential all _).bind fun shortcode => ?_
    refine (provided_requiredCredential all _).bind fun passkey => ?_
    refine (provided_requiredCredential all _).bind fun callbackUrl => ?_
    exact provided_stkPushPayload _
  refine hsubmit.bind fun value => ?_
  refine (provided_call _).bind fun _ => ?_
  exact (provided_items value).bind fun payload => Prog.raises_pure _

/-- With all its settings, a status query misses none. -/
theorem provided_checkTransactionStatus (queryable : Queryable daraja) (all : AllCredentials daraja)
    (py : Runtime) (reference : String) :
    Provided env daraja server (checkTransactionStatus daraja py reference) := by
  have hquery : Provided env daraja server (queryTransactionStatus daraja reference) := by
    refine (provided_call _).bind fun _ => ?_
    refine (provided_getOauthToken all).bind fun token => ?_
    refine (provided_requestAttempts _ _ _).bind fun response => ?_
    refine (provided_raiseForStatus response).bind fun _ => ?_
    refine (provided_json response).bind fun value => ?_
    exact (provided_call _).bind fun _ => Prog.raises_pure _
  have hpayload : transactionStatusPayload daraja = pure () :=
    transactionStatusPayload_reads.elim (fun h => h.2) fun h => absurd queryable h.1
  unfold checkTransactionStatus
  rw [hpayload]
  refine (Prog.raises_pure ()).bind fun _ => ?_
  refine hquery.attempt_bind (fun value => ?_) fun e he => ?_
  · exact (provided_items value).bind fun payload => Prog.raises_pure _
  · cases e with
    | status response =>
      refine (provided_call _).bind fun _ => ?_
      exact (provided_httpErrorDescription response).bind fun reason => Prog.raises_pure _
    | circuitOpen => exact Prog.raises_pure _
    | timeout text => exact (provided_call _).bind fun _ => Prog.raises_pure _
    | connectError text => exact (provided_call _).bind fun _ => Prog.raises_pure _
    | otherHttp text => exact (provided_call _).bind fun _ => Prog.raises_pure _
    | valueError text => exact (provided_call _).bind fun _ => Prog.raises_pure _
    | _ => exact Prog.raises_raise he

/-! ## What the client misses -/

/-- A peer that grants every token and answers nothing else. -/
def grantingServer : DarajaServer where
  answer
    | _, .oauthToken _ _ =>
      .response { statusCode := 200, body := some (.dict [("access_token", .str "token")]) }
    | _, _ => .timeout "timed out"
  pushes _ := false

/-- The server of the witness grants a token at the first request. -/
theorem tokenExchange_granted {key secret : String} (hkey : credential? daraja .consumerKey = some key)
    (hsecret : credential? daraja .consumerSecret = some secret) (n : Nat) :
    tokenExchange daraja grantingServer n = (.ok "token", n + 1) := by
  have hattempt : ∀ left, lastAttempt grantingServer (.oauthToken key secret) left n =
      (.response { statusCode := 200, body := some (.dict [("access_token", .str "token")]) }, n + 1) := by
    intro left
    cases left with
    | zero => rfl
    | succ left => rfl
  unfold tokenExchange
  rw [hkey, hsecret]
  dsimp only
  rw [hattempt]
  rfl

/-- A call whose first part raises. -/
theorem run_bind_error {α β : Type} {p : Client α} {f : α → Client β} {s : Ambient × DarajaState}
    {e : ClientExn} (h : (Prog.run (darajaAnswer env server) p s).1 = .error e) :
    (Prog.run (darajaAnswer env server) (p >>= f) s).1 = .error e := by
  rw [Prog.run_bind]
  cases hrun : Prog.run (darajaAnswer env server) p s with
  | mk r s' =>
  rw [hrun] at h
  cases h
  rfl

/-- A call whose first part returns. -/
theorem run_bind_ok {α β : Type} {p : Client α} {f : α → Client β} {s s' : Ambient × DarajaState}
    {a : α} (h : Prog.run (darajaAnswer env server) p s = (.ok a, s')) :
    Prog.run (darajaAnswer env server) (p >>= f) s = Prog.run (darajaAnswer env server) (f a) s' := by
  rw [Prog.run_bind, h]

/-- Where a consumer credential is missing, the token request raises. -/
theorem stkPushToken_misses (missing : credential? daraja .consumerKey = none ∨
    credential? daraja .consumerSecret = none) :
    ∃ subject, stkPushToken daraja = .raise (.valueError (requiredText daraja subject)) := by
  rcases @requiredCredential_cases daraja .consumerKey with ⟨key, hkey, h⟩ | ⟨-, subject, h⟩
  case inr => exact ⟨subject, by rw [stkPushToken, getOauthToken, h]; rfl⟩
  rcases @requiredCredential_cases daraja .consumerSecret with ⟨secret, hsecret, h'⟩ | ⟨-, subject, h'⟩
  case inr => exact ⟨subject, by rw [stkPushToken, getOauthToken, h, h']; rfl⟩
  rw [hkey, hsecret] at missing
  rcases missing with hnone | hnone
  · cases hnone
  · cases hnone

/-- A push that passes its breaker misses a credential that is not configured. -/
theorem push_misses (missing : ¬ AllCredentials daraja) (py : Runtime) (payment : InitiatePayment)
    {a : Ambient} {s : DarajaState} (closed : s.breaker.beforeCall env a = (.ok (), a, s.breaker)) :
    ∃ subject, (Prog.run (darajaAnswer env grantingServer) (initiateStkPush daraja py payment)
      (a, s)).1 = .error (.valueError (requiredText daraja subject)) := by
  have hbefore : Prog.run (darajaAnswer env grantingServer) (call .beforeCall) (a, s) =
      (.ok (), a, s) := by
    rw [run_call]
    simp only [darajaAnswer, closed]
  suffices hsubmit : ∃ subject, (Prog.run (darajaAnswer env grantingServer) (do
      let token ← stkPushToken daraja
      let shortcode ← requiredCredential daraja .shortcode
      let _ ← requiredCredential daraja .passkey
      let callbackUrl ← requiredCredential daraja .callbackUrl
      stkPushPayload (.stkPush token shortcode callbackUrl payment)) (a, s)).1 =
        .error (.valueError (requiredText daraja subject)) by
    obtain ⟨subject, hsubmit⟩ := hsubmit
    exact ⟨subject, run_bind_error (by rw [submitStkPush, run_bind_ok hbefore]; exact hsubmit)⟩
  cases hkey : credential? daraja .consumerKey with
  | none =>
    obtain ⟨subject, htoken⟩ := stkPushToken_misses (Or.inl hkey)
    exact ⟨subject, by rw [htoken]; rfl⟩
  | some key =>
  cases hsecret : credential? daraja .consumerSecret with
  | none =>
    obtain ⟨subject, htoken⟩ := stkPushToken_misses (Or.inr hsecret)
    exact ⟨subject, by rw [htoken]; rfl⟩
  | some secret =>
  have htoken := (@stkPushToken_granted env daraja grantingServer "token" _ a s
    (tokenExchange_granted hkey hsecret s.requests)).1
  rw [run_bind_ok htoken]
  rcases @requiredCredential_cases daraja .shortcode with ⟨shortcode, hshortcode, h⟩ | ⟨-, subject, h⟩
  case inr => exact ⟨subject, by rw [h]; rfl⟩
  rcases @requiredCredential_cases daraja .passkey with ⟨passkey, hpasskey, h'⟩ | ⟨-, subject, h'⟩
  case inr => exact ⟨subject, by rw [h, h']; rfl⟩
  rcases @requiredCredential_cases daraja .callbackUrl with ⟨url, hurl, h''⟩ | ⟨-, subject, h''⟩
  case inr => exact ⟨subject, by rw [h, h', h'']; rfl⟩
  refine absurd (fun name => ?_) missing
  cases name with
  | consumerKey => rw [hkey]; rfl
  | consumerSecret => rw [hsecret]; rfl
  | passkey => rw [hpasskey]; rfl
  | shortcode => rw [hshortcode]; rfl
  | callbackUrl => rw [hurl]; rfl

/-- A status query misses a setting that is not configured. -/
theorem status_misses (missing : ¬ Queryable daraja) (py : Runtime) (reference : String)
    (s : Ambient × DarajaState) :
    ∃ subject, (Prog.run (darajaAnswer env server) (checkTransactionStatus daraja py reference) s).1 =
      .error (.valueError (requiredText daraja subject)) := by
  rcases @transactionStatusPayload_reads daraja with ⟨h, -⟩ | ⟨-, subject, h⟩
  · exact absurd h missing
  · exact ⟨subject, by rw [checkTransactionStatus, h]; rfl⟩

end Client

end RealDarajaClient

open RealDarajaClient

/-! ## Accepted settings -/

section Accepted

variable {settings : RuntimeSettings}

/-- Accepted settings leave the list of issues empty. -/
theorem startupIssues_of_accepted (accepted : validateStartupSettings settings = .ok ()) :
    startupIssues settings = [] := by
  unfold validateStartupSettings at accepted
  split at accepted
  next h => exact h
  next => cases accepted

/-- A group of required settings gives no issue where each of them has a value. -/
theorem ConfigValidation.required_eq_nil {reason : String} {settings : List (String × Option String)} :
    ConfigValidation.required reason settings = [] ↔
      ∀ setting ∈ settings, ConfigValidation.hasValue setting.2 = true := by
  simp [ConfigValidation.required]

/-- A value that is not blank is configured. -/
theorem configured_of_hasValue {value : Option String} (h : ConfigValidation.hasValue value = true) :
    (configured value).isSome := by
  cases value with
  | none => cases h
  | some text =>
    have htext : text ≠ "" := by
      rintro rfl
      revert h
      decide
    simp [configured, htext]

/-- Accepted settings for production have all credentials of their mode. -/
theorem production_credentials (accepted : validateStartupSettings settings = .ok ())
    (production : settings.darajaMode = "production") (name : CredentialName) :
    (configured (settings.darajaProductionCredential name)).isSome := by
  have hissues := startupIssues_of_accepted accepted
  simp only [startupIssues, List.append_eq_nil_iff] at hissues
  have hrequired := hissues.1.1.1.1.1.1
  unfold ConfigValidation.validateDarajaProductionSettings at hrequired
  rw [if_neg (by simp [production]), ConfigValidation.required_eq_nil] at hrequired
  refine configured_of_hasValue ?_
  cases name with
  | consumerKey => exact hrequired ("DARAJA_PRODUCTION_CONSUMER_KEY", _) (by simp)
  | consumerSecret => exact hrequired ("DARAJA_PRODUCTION_CONSUMER_SECRET", _) (by simp)
  | passkey => exact hrequired ("DARAJA_PRODUCTION_PASSKEY", _) (by simp)
  | shortcode => exact hrequired ("DARAJA_PRODUCTION_SHORTCODE", _) (by simp)
  | callbackUrl => exact hrequired ("DARAJA_PRODUCTION_CALLBACK_URL", _) (by simp)

/-- Accepted settings name a source verifier, and its secret. -/
theorem sourceVerifier_ok (accepted : validateStartupSettings settings = .ok ()) :
    ∃ verifier, StartupFactory.createCallbackSourceVerifier settings = .ok verifier := by
  have hissues := startupIssues_of_accepted accepted
  simp only [startupIssues, List.append_eq_nil_iff] at hissues
  have hverifier := hissues.1.1.2
  unfold ConfigValidation.validateCallbackSourceVerificationSettings at hverifier
  split at hverifier
  · cases hverifier
  next hmode =>
  rw [not_not] at hmode
  simp only [List.mem_cons, List.not_mem_nil, or_false] at hmode
  unfold StartupFactory.createCallbackSourceVerifier
  rcases hmode with hmode | hmode | hmode
  · exact ⟨_, if_pos hmode⟩
  · -- the secret of a trusted proxy is not blank
    cases hsecret : settings.trustedProxySharedSecret with
    | none =>
      obtain ⟨-, hissue⟩ := List.append_eq_nil_iff.mp hverifier
      rw [if_pos ⟨hmode, by rw [hsecret]; rfl⟩] at hissue
      cases hissue
    | some secret => exact ⟨.trustedProxy settings.trustedProxyHeaderName secret, by simp [hmode]⟩
  · exact ⟨.strictBlock, by simp [hmode]⟩

end Accepted

/-! ## The factory -/

namespace StartupFactory

/-- What a part of the factory can raise. -/
def Fails {α : Type} (P : StartupExn → Prop) (r : Except StartupExn α) : Prop :=
  ∀ e, r = .error e → P e

/-- An exception of the factory itself. -/
abbrev Own (e : StartupExn) : Prop := ∃ own, e = .own own

/-- An exception of another package. -/
abbrev Foreign (e : StartupExn) : Prop := ∃ foreign, e = .outside foreign

/-- Constructors that all succeed. -/
def quiet : Outside where
  databaseEngine _ := none
  redis _ := none
  httpClient := none

section Fails

variable {α β : Type} {P : StartupExn → Prop}

/-- A sequence fails as one of its parts does. -/
theorem Fails.bind {r : Except StartupExn α} {f : α → Except StartupExn β} (hr : Fails P r)
    (hf : ∀ a, r = .ok a → Fails P (f a)) : Fails P (r >>= f) := by
  intro e he
  cases r with
  | ok a => exact hf a rfl e he
  | error e' =>
    cases he
    exact hr e rfl

/-- A sequence that returns has returned from both of its parts. -/
theorem bind_eq_ok {r : Except StartupExn α} {f : α → Except StartupExn β} {b : β}
    (h : r >>= f = .ok b) : ∃ a, r = .ok a ∧ f a = .ok b := by
  cases r with
  | ok a => exact ⟨a, rfl, h⟩
  | error e => cases h

theorem fails_ok (a : α) : Fails P (.ok a) := nofun

theorem fails_error {e : StartupExn} (he : P e) : Fails P (.error e : Except StartupExn α) :=
  fun _ h => by cases h; exact he

end Fails

section Steps

variable {outside : Outside} {settings : RuntimeSettings}

/-- What the constructors of other libraries raise is none of the factory's own exceptions. -/
theorem fails_construct (raised : Option Exn) : Fails Foreign (construct raised) := by
  cases raised with
  | none => exact fails_ok _
  | some e => exact fails_error ⟨e, rfl⟩

theorem fails_createSessionFactory : Fails Foreign (createSessionFactory outside settings) := by
  unfold createSessionFactory
  split
  · exact fails_ok _
  · cases outside.databaseEngine settings.databaseUrl with
    | none => exact fails_ok _
    | some e => exact fails_error ⟨e, rfl⟩

/-- The session factory is there where Postgres is configured. -/
theorem createSessionFactory_ok {sessionFactory : Option Unit}
    (h : createSessionFactory outside settings = .ok sessionFactory)
    (postgres : settings.storageMode = "postgres") : sessionFactory = some () := by
  unfold createSessionFactory at h
  rw [if_neg (by simp [postgres])] at h
  cases hengine : outside.databaseEngine settings.databaseUrl with
  | none =>
    rw [hengine] at h
    cases h
    rfl
  | some e =>
    rw [hengine] at h
    cases h

/-- A repository is made only for a mode that the factory knows. -/
theorem createRepository_ok {missing : String} {sessionFactory : Option Unit} {backend : Backend}
    (h : createRepository settings missing sessionFactory = .ok backend) :
    settings.storageMode ∈ ["memory", "postgres"] := by
  unfold createRepository at h
  split at h
  next hmemory => simp [hmemory]
  next =>
    split at h
    next hpostgres => simp [hpostgres]
    next => cases h

/-- Over the session factory of its settings, a repository of a known mode is built. -/
theorem createRepository_known (known : settings.storageMode ∈ ["memory", "postgres"])
    (missing : String) {sessionFactory : Option Unit}
    (h : createSessionFactory outside settings = .ok sessionFactory) :
    ∃ backend, createRepository settings missing sessionFactory = .ok backend := by
  unfold createRepository
  simp only [List.mem_cons, List.not_mem_nil, or_false] at known
  rcases known with hmode | hmode
  · exact ⟨.memory, if_pos hmode⟩
  · rw [createSessionFactory_ok h hmode]
    exact ⟨.remote, by simp [hmode]⟩

/-- A limiter or a replay store, which are made by this function, is made only for a mode that the
factory knows. -/
theorem createRedisBacked_ok {mode unknown : String} {backend : Backend}
    (h : createRedisBacked outside settings mode unknown = .ok backend) :
    mode ∈ ["memory", "redis"] := by
  unfold createRedisBacked at h
  split at h
  next hmemory => simp [hmemory]
  next =>
    split at h
    next hredis => simp [hredis]
    next => cases h

/-- In a known mode, only the constructor of Redis can fail. -/
theorem createRedisBacked_known {mode : String} (known : mode ∈ ["memory", "redis"])
    (unknown : String) : Fails Foreign (createRedisBacked outside settings mode unknown) := by
  unfold createRedisBacked
  simp only [List.mem_cons, List.not_mem_nil, or_false] at known
  rcases known with rfl | rfl
  · exact fails_ok _
  · cases outside.redis settings.redisUrl with
    | none => exact fails_ok _
    | some e => exact fails_error ⟨e, rfl⟩

/-- A provider is made only under a name that the factory knows. -/
theorem createPaymentProvider_ok {adapter : Bool} (h : createPaymentProvider settings = .ok adapter) :
    settings.paymentProvider ∈ ["daraja", "airtel_mock"] := by
  unfold createPaymentProvider at h
  split at h
  next hdaraja => simp [hdaraja]
  next =>
    split at h
    next hairtel => simp [hairtel]
    next => cases h

/-- Under a known name, nothing can fail. -/
theorem createPaymentProvider_known (known : settings.paymentProvider ∈ ["daraja", "airtel_mock"]) :
    ∃ adapter, createPaymentProvider settings = .ok adapter := by
  unfold createPaymentProvider
  simp only [List.mem_cons, List.not_mem_nil, or_false] at known
  rcases known with hmode | hmode
  · exact ⟨true, if_pos hmode⟩
  · exact ⟨false, by simp [hmode]⟩

variable {env : Env} {server : DarajaServer} {a : Ambient}

/-- The client that is built is the real one outside of the mock mode. -/
theorem createDarajaClient_ok {real : Bool}
    (h : createDarajaClient outside settings env server a = .ok real) :
    settings.darajaMode ∈ ["mock", "sandbox", "production"] ∧
      (real = true ↔ settings.darajaMode ∈ ["sandbox", "production"]) := by
  unfold createDarajaClient at h
  split at h
  next hmock =>
    cases h
    rw [hmock]
    exact ⟨by decide, by decide⟩
  next =>
    split at h
    next hmode =>
      refine ⟨List.mem_cons_of_mem _ hmode, fun _ => hmode, fun _ => ?_⟩
      obtain ⟨_, -, h⟩ := bind_eq_ok h
      split at h
      · cases h
        rfl
      · cases h
    next => cases h

/-- A client of a known mode whose credentials are there is built, if its HTTP client is. -/
theorem createDarajaClient_known (known : settings.darajaMode ∈ ["mock", "sandbox", "production"])
    (credentials : settings.darajaMode = "production" → AllCredentials settings.daraja) :
    Fails Foreign (createDarajaClient outside settings env server a) := by
  unfold createDarajaClient
  split
  next => exact fails_ok _
  next hmock =>
    have hmode := (List.mem_cons.mp known).resolve_left hmock
    rw [if_pos hmode]
    refine (fails_construct _).bind fun _ _ => ?_
    have hinit : RealDarajaClient.init settings.daraja = pure () := by
      unfold RealDarajaClient.init
      split
      next hproduction =>
        have hall := credentials hproduction
        obtain ⟨_, h₁⟩ := hall.read .consumerKey
        obtain ⟨_, h₂⟩ := hall.read .consumerSecret
        obtain ⟨_, h₃⟩ := hall.read .passkey
        obtain ⟨_, h₄⟩ := hall.read .shortcode
        obtain ⟨_, h₅⟩ := hall.read .callbackUrl
        rw [validateProductionCredentials, h₁, h₂, h₃, h₄, h₅]
        rfl
      next => rfl
    rw [hinit]
    exact fails_ok _

/-- A container that is built has known modes. -/
theorem mock_ok {components : Components} (h : mock outside settings env server a = .ok components) :
    settings.storageMode ∈ ["memory", "postgres"] ∧ settings.rateLimitMode ∈ ["memory", "redis"] ∧
    settings.callbackReplayMode ∈ ["memory", "redis"] ∧
    settings.darajaMode ∈ ["mock", "sandbox", "production"] ∧
    settings.paymentProvider ∈ ["daraja", "airtel_mock"] ∧
    (components.realDarajaClient = true ↔ settings.darajaMode ∈ ["sandbox", "production"]) := by
  obtain ⟨_, -, h⟩ := bind_eq_ok h
  obtain ⟨_, hstorage, h⟩ := bind_eq_ok h
  obtain ⟨_, -, h⟩ := bind_eq_ok h
  obtain ⟨_, hlimit, h⟩ := bind_eq_ok h
  obtain ⟨_, hreplay, h⟩ := bind_eq_ok h
  obtain ⟨_, -, h⟩ := bind_eq_ok h
  obtain ⟨_, hdaraja, h⟩ := bind_eq_ok h
  obtain ⟨_, hprovider, h⟩ := bind_eq_ok h
  cases h
  exact ⟨createRepository_ok hstorage, createRedisBacked_ok hlimit, createRedisBacked_ok hreplay,
    (createDarajaClient_ok hdaraja).1, createPaymentProvider_ok hprovider,
    (createDarajaClient_ok hdaraja).2⟩

/-- Of accepted settings whose modes are known, nothing but another package can raise. -/
theorem mock_known (accepted : validateStartupSettings settings = .ok ()) (complete : Complete settings)
    (credentials : settings.darajaMode = "production" → AllCredentials settings.daraja) :
    Fails Foreign (mock outside settings env server a) := by
  refine fails_createSessionFactory.bind fun sessionFactory hfactory => ?_
  obtain ⟨transactions, htransactions⟩ := createRepository_known complete.storage
    "Postgres storage requires a session factory." hfactory
  obtain ⟨audit, haudit⟩ := createRepository_known complete.storage
    "Postgres audit storage requires a session factory." hfactory
  rw [createTransactionRepository, createAuditRepository, htransactions, haudit]
  refine (fails_ok _).bind fun _ _ => (fails_ok _).bind fun _ _ => ?_
  refine (createRedisBacked_known complete.rateLimit _).bind fun _ _ => ?_
  refine (createRedisBacked_known complete.replay _).bind fun _ _ => ?_
  obtain ⟨verifier, hverifier⟩ := sourceVerifier_ok accepted
  rw [hverifier]
  refine (fails_ok _).bind fun _ _ => ?_
  refine (createDarajaClient_known complete.daraja credentials).bind fun _ _ => ?_
  obtain ⟨adapter, hadapter⟩ := createPaymentProvider_known complete.provider
  rw [hadapter]
  exact (fails_ok _).bind fun _ _ => fails_ok _

/-! ### Where no other package raises -/

theorem own_createSessionFactory : Fails Own (createSessionFactory quiet settings) := by
  unfold createSessionFactory
  split_ifs
  · exact fails_ok _
  · exact fails_ok _

theorem own_createRepository (missing : String) (sessionFactory : Option Unit) :
    Fails Own (createRepository settings missing sessionFactory) := by
  unfold createRepository
  split_ifs
  · exact fails_ok _
  · cases sessionFactory with
    | none => exact fails_error ⟨_, rfl⟩
    | some factory => exact fails_ok _
  · exact fails_error ⟨_, rfl⟩

/-- In a quiet world the factory's own exceptions are all that is left. -/
theorem own_createRedisBacked (mode unknown : String) :
    Fails Own (createRedisBacked quiet settings mode unknown) := by
  unfold createRedisBacked
  split_ifs
  · exact fails_ok _
  · exact fails_ok _
  · exact fails_error ⟨_, rfl⟩

theorem own_createCallbackSourceVerifier : Fails Own (createCallbackSourceVerifier settings) := by
  unfold createCallbackSourceVerifier
  split_ifs
  · exact fails_ok _
  · exact fails_ok _
  · cases settings.trustedProxySharedSecret with
    | none => exact fails_error ⟨_, rfl⟩
    | some secret => exact fails_ok _
  · exact fails_error ⟨_, rfl⟩

theorem own_createDarajaClient : Fails Own (createDarajaClient quiet settings env server a) := by
  unfold createDarajaClient
  split_ifs
  · exact fails_ok _
  · refine Fails.bind (fails_ok _) fun _ _ => ?_
    split
    · exact fails_ok _
    · exact fails_error ⟨_, rfl⟩
  · exact fails_error ⟨_, rfl⟩

theorem own_createPaymentProvider : Fails Own (createPaymentProvider settings) := by
  unfold createPaymentProvider
  split_ifs
  · exact fails_ok _
  · exact fails_ok _
  · exact fails_error ⟨_, rfl⟩

/-- Where no other package raises, only the factory can. -/
theorem mock_quiet : Fails Own (mock quiet settings env server a) := by
  refine own_createSessionFactory.bind fun sessionFactory _ => ?_
  refine (own_createRepository _ _).bind fun _ _ => (own_createRepository _ _).bind fun _ _ => ?_
  refine (own_createRedisBacked _ _).bind fun _ _ => (own_createRedisBacked _ _).bind fun _ _ => ?_
  refine own_createCallbackSourceVerifier.bind fun _ _ => ?_
  refine own_createDarajaClient.bind fun _ _ => ?_
  exact own_createPaymentProvider.bind fun _ _ => fails_ok _

end Steps

end StartupFactory

open StartupFactory

/-! ## Soundness of the validation -/

section Soundness

variable {settings : RuntimeSettings}

/-- In the sandbox a credential is its own or the general one, and the checks ask for neither. -/
theorem credential?_sandbox (sandbox : settings.darajaMode = "sandbox") (name : CredentialName) :
    (credential? settings.daraja name).isSome ↔
      (configured (settings.darajaSandboxCredential name)).isSome ∨
        (configured (settings.darajaCredential name)).isSome := by
  have hmode : settings.daraja.modeCredential name = settings.darajaSandboxCredential name :=
    if_pos sandbox
  rw [credential?, hmode, Option.isSome_or, Bool.or_eq_true]
  exact Iff.rfl

/-- In production the checks ask for every credential, so none can be missed later. -/
theorem allCredentials_of_production (accepted : validateStartupSettings settings = .ok ())
    (production : settings.darajaMode = "production") : AllCredentials settings.daraja := by
  intro name
  have hmode : settings.daraja.modeCredential name = settings.darajaProductionCredential name := by
    show settings.modeCredential name = _
    simp [RuntimeSettings.modeCredential, production]
  rw [credential?, hmode, Option.isSome_or, Bool.or_eq_true]
  exact Or.inl (production_credentials accepted production name)

/-- The shortcode aside, the settings of a status query. -/
theorem queryable_iff (credentials : AllCredentials settings.daraja) :
    Queryable settings.daraja ↔
      ∀ value ∈ [settings.darajaInitiatorName, settings.darajaSecurityCredential,
        settings.darajaTransactionStatusResultUrl, settings.darajaTransactionStatusTimeoutUrl],
        (configured value).isSome := by
  simp only [List.forall_mem_cons, List.not_mem_nil, false_imp_iff, implies_true, and_true]
  exact ⟨fun h => ⟨h.initiatorName, h.securityCredential, h.resultUrl, h.timeoutUrl⟩,
    fun h => ⟨h.1, h.2.1, credentials .shortcode, h.2.2.1, h.2.2.2⟩⟩

/-- What a caller of the client sees of a missing setting. -/
theorem misses_iff {α : Type} {daraja : DarajaSettings} (env : Env) (server : DarajaServer)
    (p : Client α) (s : Ambient × DarajaState) :
    (∃ e, ((runClient env server p s).1.map fun _ => ()) = .error e ∧ MissesSetting daraja e) ↔
      ∃ name, (Prog.run (darajaAnswer env server) p s).1 =
        .error (.valueError (requiredText daraja name)) := by
  cases hrun : Prog.run (darajaAnswer env server) p s with
  | mk r s' =>
  have houtput : (runClient env server p s).1 = r.mapError ClientExn.toExn := by
    rw [runClient, hrun]
  rw [houtput]
  cases r with
  | ok value => exact ⟨nofun, nofun⟩
  | error e =>
    constructor
    · intro ⟨e', he, name, hname⟩
      obtain rfl : e.toExn = e' := Except.error.inj he
      cases e with
      | valueError message => exact ⟨name, congrArg _ (congrArg _ (Exn.valueError.inj hname))⟩
      | _ => cases hname
    · intro ⟨name, he⟩
      obtain rfl : e = .valueError (requiredText daraja name) := Except.error.inj he
      exact ⟨_, rfl, name, rfl⟩

/-- Complete settings that are accepted keep what the validation promises: every mode is known to its
factory, and every setting that a later call reads is there. -/
theorem sound_of_complete (accepted : validateStartupSettings settings = .ok ())
    (complete : Complete settings) : StartupSound settings := by
  intro outside env server a
  have hproduction := allCredentials_of_production accepted
  refine ⟨fun e he => ?_, fun components hok hreal a' calls st hst e he hmisses => ?_⟩
  · obtain ⟨foreign, hforeign⟩ := mock_known accepted complete hproduction _ he
    cases hforeign
  · have hmode := (mock_ok hok).2.2.2.2.2.mp hreal
    have hall : AllCredentials settings.daraja := by
      rcases List.mem_cons.mp hmode with hsandbox | hrest
      · exact fun name => (credential?_sandbox hsandbox name).mpr (complete.credentials hsandbox name)
      · exact hproduction (List.mem_singleton.mp hrest)
    have hqueryable := (queryable_iff hall).mpr (complete.statusQuery hmode)
    obtain ⟨before, call, _, -, rfl⟩ := mem_trace_split hst
    cases call with
    | initiateStkPush payment =>
      obtain ⟨name, hrun⟩ := (misses_iff env server _ _).mp ⟨e, he, hmisses⟩
      exact provided_initiateStkPush hall _ payment _ _ hrun name rfl
    | checkTransactionStatus reference =>
      obtain ⟨name, hrun⟩ := (misses_iff env server _ _).mp ⟨e, he, hmisses⟩
      exact provided_checkTransactionStatus hqueryable hall _ reference _ _ hrun name rfl

/-- A new breaker is closed. -/
theorem newBreaker_beforeCall (env : Env) (a : Ambient) :
    settings.newBreaker.beforeCall env a = (.ok (), a, settings.newBreaker) := by
  unfold DarajaCircuitBreaker.beforeCall
  split
  · rfl
  · rfl

/-- Settings that keep what the validation promises are complete: for whatever is missing there is a
world in which the factory or a later call says so. -/
theorem complete_of_sound (sound : StartupSound settings) : Complete settings := by
  obtain ⟨hown, hcalls⟩ := sound quiet .still grantingServer {}
  obtain ⟨components, hok⟩ : ∃ components, mock quiet settings .still grantingServer {} =
      .ok components := by
    cases hmock : mock quiet settings .still grantingServer {} with
    | ok components => exact ⟨components, rfl⟩
    | error e =>
      obtain ⟨own, rfl⟩ := mock_quiet e hmock
      exact absurd hmock (hown own)
  obtain ⟨hstorage, hlimit, hreplay, hdaraja, hprovider, hreal⟩ := mock_ok hok
  have hfirst : ∀ call, settings.darajaMode ∈ ["sandbox", "production"] → ¬ ∃ e,
      (clientStep .still grantingServer settings.daraja call
        ({}, { breaker := settings.newBreaker })).1 = .error e ∧ MissesSetting settings.daraja e :=
    fun call hmode ⟨e, he, hmisses⟩ => hcalls components hok (hreal.mpr hmode) {} [call] _
      List.mem_cons_self e he hmisses
  have hall : settings.darajaMode ∈ ["sandbox", "production"] → AllCredentials settings.daraja := by
    intro hmode
    by_contra hmissing
    exact hfirst (.initiateStkPush ⟨"254700000000", 10, "order", "goods"⟩) hmode
      ((misses_iff _ _ _ _).mpr (push_misses hmissing _ _ (newBreaker_beforeCall _ _)))
  refine ⟨hstorage, hlimit, hreplay, hdaraja, hprovider, fun hsandbox name => ?_, fun hmode => ?_⟩
  · exact (credential?_sandbox hsandbox name).mp (hall (by simp [hsandbox]) name)
  · refine (queryable_iff (hall hmode)).mp (by_contra fun hmissing => ?_)
    exact hfirst (.checkTransactionStatus "ws_CO_1") hmode
      ((misses_iff _ _ _ _).mpr (status_misses hmissing _ _ _))

end Soundness

/-- **Accepted settings promise a working client** exactly where they are complete. What the checks
leave out is all there is: for each setting missing there is a world in which the factory or a later
call of the client raises over it, and for none else. -/
theorem startup_sound_iff (settings : RuntimeSettings)
    (accepted : validateStartupSettings settings = .ok ()) :
    StartupSound settings ↔ Complete settings :=
  ⟨complete_of_sound, sound_of_complete accepted⟩

/-- A sandbox with general credentials and the settings of a status query. -/
def sandboxRuntime : RuntimeSettings where
  darajaMode := "sandbox"
  darajaCredential _ := some "configured"
  darajaInitiatorName := some "initiator"
  darajaSecurityCredential := some "credential"
  darajaTransactionStatusResultUrl := some "https://result"
  darajaTransactionStatusTimeoutUrl := some "https://timeout"
  operatorViewerToken := some "viewer"

theorem startup_sound_sandbox : StartupSound sandboxRuntime :=
  (startup_sound_iff sandboxRuntime (if_pos (by decide))).mpr
    ⟨by decide, by decide, by decide, by decide, by decide, fun _ _ => Or.inr rfl, by decide⟩

/-- Production with every setting that the checks ask for. -/
def productionRuntime : RuntimeSettings where
  appEnv := "production"
  darajaMode := "production"
  darajaProductionCredential _ := some "configured"
  callbackSharedSecret := some "secret"
  callbackSourceVerificationMode := "strict_block"
  operatorViewerToken := some "viewer"

/-- Accepted production settings fail at the first status query, and an accepted misspelt storage mode
when the container is built. -/
theorem accepted_but_unsound :
    validateStartupSettings productionRuntime = .ok () ∧ ¬ StartupSound productionRuntime ∧
    let misspelt := { productionRuntime with storageMode := "postgresql" }
    validateStartupSettings misspelt = .ok () ∧ ¬ StartupSound misspelt := by
  refine ⟨if_pos (by decide), fun sound => ?_, if_pos (by decide), fun sound => ?_⟩
  · exact absurd ((complete_of_sound sound).statusQuery (by decide)) (by decide)
  · exact absurd (complete_of_sound sound).storage (by decide)

end MpesaMcp
