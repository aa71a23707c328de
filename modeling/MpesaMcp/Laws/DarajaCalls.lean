import MpesaMcp.Laws.StatusQueries

/-!
# Calls of the Daraja client, normalized and recorded

A push is meant to come back as a response or as a `DarajaProviderError`, a status query as a response,
and either to be recorded once on the circuit breaker. Two things stand in the way. A body that is JSON
but no object has no `get`, wherever it is read; and the first `try` of a push has no clause for the
`ValueError` of a token request that succeeds without a token.

`calls_settle_iff` says that nothing else does.
-/

set_option autoImplicit false

namespace MpesaMcp

open Library Python

/-- `record_success` or `record_failure`. -/
def DarajaCall.records : DarajaCall → Bool
  | .recordSuccess => true
  | .recordFailure => true
  | _ => false

/-- The body of a response, where it is JSON, is an object. -/
def HttpResponse.Readable (response : HttpResponse) : Prop :=
  ∀ value ∈ response.body, ∃ payload, value = .dict payload

/-- A response, where there is one, has a readable body. -/
def HttpOutcome.Readable (outcome : HttpOutcome) : Prop :=
  ∀ response, outcome = .response response → response.Readable

/-- A successful response with an access token. -/
def HttpOutcome.Grants (outcome : HttpOutcome) (token : String) : Prop :=
  ∃ response payload, outcome = .response response ∧ response.Successful ∧
    response.body = some (.dict payload) ∧ lookup payload "access_token" = .str token ∧ token ≠ ""

/-- What a push needs of its token request: a success grants a token, and any other response has a
readable body. -/
structure HttpOutcome.SettlesToken (outcome : HttpOutcome) : Prop where
  readable : outcome.Readable
  granted : ∀ response, outcome = .response response → response.Successful →
    ∃ token, outcome.Grants token

namespace HttpOutcome

open RealDarajaClient

variable {outcome : HttpOutcome}

theorem readable_response {response : HttpResponse} :
    (HttpOutcome.response response).Readable ↔ response.Readable :=
  ⟨fun h => h response rfl, fun h other hother => by cases hother; exact h⟩

/-- What is read from an outcome is handled exactly where the outcome is readable: the client knows no
other exceptions. -/
theorem handled_read (outcome : HttpOutcome) : Handled outcome.read ↔ outcome.Readable := by
  cases outcome with
  | response response =>
    rw [readable_response, read]
    split
    · cases hbody : response.body with
      | none => simp [Handled, HttpResponse.Readable, hbody]
      | some value => simp [Handled, HttpResponse.Readable, hbody]
    · exact Iff.rfl
  | _ => exact ⟨fun _ _ h => HttpOutcome.noConfusion h, fun _ => trivial⟩

/-- The token of an object, an object without one, or another document. -/
theorem accessToken_cases (value : PyValue) :
    (∃ payload token, value = .dict payload ∧ lookup payload "access_token" = .str token ∧ token ≠ "" ∧
      accessToken value = .ok token) ∨
    (∃ payload message, value = .dict payload ∧ accessToken value = .error (.valueError message)) ∨
    ((∀ payload, value ≠ .dict payload) ∧
      ∃ message, accessToken value = .error (.attributeError message)) := by
  let missing := "Daraja OAuth response did not include an access token."
  cases value with
  | dict payload =>
    cases hlookup : lookup payload "access_token" with
    | str token =>
      by_cases htoken : token = ""
      · refine Or.inr (Or.inl ⟨payload, missing, rfl, ?_⟩)
        simp only [accessToken, hlookup, if_pos htoken, missing]
      · refine Or.inl ⟨payload, token, rfl, hlookup, htoken, ?_⟩
        simp only [accessToken, hlookup, if_neg htoken]
    | _ =>
      refine Or.inr (Or.inl ⟨payload, missing, rfl, ?_⟩)
      simp only [accessToken, hlookup, missing]
  | _ => exact Or.inr (Or.inr ⟨fun _ h => PyValue.noConfusion h, _, rfl⟩)

/-- No answer is an open circuit. -/
theorem read_ne_circuitOpen (outcome : HttpOutcome) : outcome.read ≠ .error .circuitOpen := by
  cases outcome with
  | response answer =>
    rw [read]
    split
    · cases answer.body <;> exact fun h => by cases h
    · exact fun h => by cases h
  | _ => exact fun h => by cases h

/-- An answer of the server is never taken for an open breaker, which raises before any request. -/
theorem token_ne_circuitOpen (outcome : HttpOutcome) :
    outcome.read.bind accessToken ≠ .error .circuitOpen := by
  cases hread : outcome.read with
  | error e =>
    intro h
    cases h
    exact read_ne_circuitOpen outcome hread
  | ok value =>
    intro h
    rcases accessToken_cases value with ⟨_, _, -, -, -, haccess⟩ | ⟨_, _, -, haccess⟩ |
      ⟨-, _, haccess⟩ <;> cases haccess.symm.trans h

/-- The failures of a token request that a push answers with a `DarajaProviderError`. -/
def TokenCaught : ClientExn → Prop
  | .status answer => answer.Readable
  | .timeout _ => True
  | .connectError _ => True
  | .otherHttp _ => True
  | _ => False

/-- A response that grants a token is read as this token. -/
theorem Grants.read_bind {token : String} (h : outcome.Grants token) :
    outcome.read.bind accessToken = .ok token := by
  obtain ⟨answer, payload, rfl, hsuccess, hbody, hlookup, htoken⟩ := h
  simp only [read, if_pos hsuccess, hbody, Except.bind, accessToken, hlookup, if_neg htoken]

/-- A token request that fails after a success has no clause in a push; any other failure is caught
where its body is readable. -/
theorem token_failed {e : ClientExn} (h : outcome.read.bind accessToken = .error e) :
    ((∀ response, outcome = .response response → ¬ response.Successful) ∧
      (outcome.Readable ↔ TokenCaught e)) ∨
    ((∃ response, outcome = .response response ∧ response.Successful) ∧ ¬ TokenCaught e) := by
  cases outcome with
  | response answer =>
    by_cases hsuccess : answer.Successful
    · refine Or.inr ⟨⟨answer, rfl, hsuccess⟩, ?_⟩
      rw [read, if_pos hsuccess] at h
      cases hbody : answer.body with
      | none =>
        rw [hbody] at h
        cases h
        exact id
      | some value =>
        rw [hbody] at h
        rcases accessToken_cases value with ⟨_, token, -, -, -, haccess⟩ | ⟨_, _, -, haccess⟩ |
          ⟨-, _, haccess⟩
        · cases h.symm.trans haccess
        · cases h.symm.trans haccess
          exact id
        · cases h.symm.trans haccess
          exact id
    · rw [read, if_neg hsuccess] at h
      cases h
      exact Or.inl ⟨fun _ hanswer => by cases hanswer; exact hsuccess, readable_response⟩
  | _ =>
    cases h
    exact Or.inl ⟨fun _ hanswer => HttpOutcome.noConfusion hanswer,
      fun _ => trivial, fun _ _ hanswer => HttpOutcome.noConfusion hanswer⟩

/-- Which failures of a token request a push turns into a `DarajaProviderError`. -/
theorem settlesToken_iff {e : ClientExn} (h : outcome.read.bind accessToken = .error e) :
    outcome.SettlesToken ↔ TokenCaught e := by
  rcases token_failed h with ⟨hrefused, hreadable⟩ | ⟨⟨response, hresponse, hsuccess⟩, hescapes⟩
  · refine ⟨fun hsettles => hreadable.mp hsettles.readable, fun hcaught => ⟨hreadable.mpr hcaught, ?_⟩⟩
    exact fun response hresponse hsuccess => absurd hsuccess (hrefused response hresponse)
  · refine ⟨fun hsettles => ?_, fun hcaught => absurd hcaught hescapes⟩
    obtain ⟨token, hgrants⟩ := hsettles.granted response hresponse hsuccess
    cases h.symm.trans hgrants.read_bind

/-- Which failures of a token request a status query turns into a response. -/
theorem handled_token {e : ClientExn} (h : outcome.read.bind accessToken = .error e) :
    Handled (.error e : Except ClientExn PyValue) ↔ outcome.Readable := by
  rw [← handled_read]
  cases hread : outcome.read with
  | error e' =>
    rw [hread] at h
    cases h
    exact Iff.rfl
  | ok value =>
    rw [hread] at h
    rcases accessToken_cases value with ⟨_, token, -, -, -, haccess⟩ | ⟨payload, _, hvalue, haccess⟩ |
      ⟨hvalue, _, haccess⟩
    · cases h.symm.trans haccess
    · cases h.symm.trans haccess
      exact ⟨fun _ => ⟨payload, hvalue⟩, fun _ => trivial⟩
    · cases h.symm.trans haccess
      exact ⟨fun hhandled => hhandled.elim, fun ⟨payload, hpayload⟩ => hvalue payload hpayload⟩

/-- A token request that is granted a token was answered with one. -/
theorem grants_of_read_bind {token : String} (h : outcome.read.bind accessToken = .ok token) :
    outcome.Grants token := by
  cases outcome with
  | response answer =>
    by_cases hsuccess : answer.Successful
    · rw [read, if_pos hsuccess] at h
      cases hbody : answer.body with
      | none =>
        rw [hbody] at h
        cases h
      | some value =>
        rw [hbody] at h
        rcases accessToken_cases value with ⟨payload, _, hvalue, hlookup, htoken, haccess⟩ |
          ⟨_, _, -, haccess⟩ | ⟨-, _, haccess⟩
        · cases h.symm.trans haccess
          exact ⟨answer, payload, rfl, hsuccess, hvalue ▸ hbody, hlookup, htoken⟩
        · cases h.symm.trans haccess
        · cases h.symm.trans haccess
    · rw [read, if_neg hsuccess] at h
      cases h
  | _ => cases h

/-- A token that is granted ends the exchange; it is not asked for again. -/
theorem Grants.settlesToken {token : String} (h : outcome.Grants token) :
    outcome.SettlesToken := by
  obtain ⟨response, payload, rfl, hsuccess, hbody, hlookup, htoken⟩ := h
  refine ⟨readable_response.mpr fun value hvalue => ⟨payload, ?_⟩, fun _ _ _ => ⟨token, ?_⟩⟩
  · rw [hbody] at hvalue
    exact (Option.some.inj hvalue).symm
  · exact ⟨response, payload, rfl, hsuccess, hbody, hlookup, htoken⟩

end HttpOutcome

namespace RealDarajaClient

/-! ## What a call needs of its requests -/

/-- The credentials of a client, all of them configured. -/
structure Credentials (daraja : DarajaSettings) where
  value : CredentialName → String
  configured : ∀ name, credential? daraja name = some (value name)

section Requests

variable {daraja : DarajaSettings} (credentials : Credentials daraja) (server : DarajaServer)

/-- What the token request comes to from the n-th request on, and the number of the next one. -/
def tokenAnswer (n : Nat) : HttpOutcome × Nat :=
  lastAttempt server (.oauthToken (credentials.value .consumerKey) (credentials.value .consumerSecret))
    (retries daraja) n

/-- The answers a push can handle. -/
structure PushReadable (payment : InitiatePayment) (n : Nat) : Prop where
  token : (tokenAnswer credentials server n).1.SettlesToken
  push : ∀ token, (tokenAnswer credentials server n).1.Grants token →
    (server.answer (tokenAnswer credentials server n).2 (.stkPush token (credentials.value .shortcode)
      (credentials.value .callbackUrl) payment)).Readable

/-- The answers a status query can handle. -/
structure QueryReadable (reference : String) (n : Nat) : Prop where
  token : (tokenAnswer credentials server n).1.Readable
  query : ∀ token, (tokenAnswer credentials server n).1.Grants token →
    (lastAttempt server (.transactionStatus token reference) (retries daraja)
      (tokenAnswer credentials server n).2).1.Readable

/-- The exchange is a function of the server's answers and of the number of requests so far, for a
client whose credentials are set. -/
theorem tokenExchange_eq (n : Nat) : tokenExchange daraja server n =
    ((tokenAnswer credentials server n).1.read.bind accessToken,
      (tokenAnswer credentials server n).2) := by
  unfold tokenExchange
  rw [credentials.configured .consumerKey, credentials.configured .consumerSecret]
  rfl

/-- A credential that is set is returned. -/
theorem requiredCredential_eq (name : CredentialName) :
    requiredCredential daraja name = pure (credentials.value name) := by
  have hconfigured := credentials.configured name
  unfold credential? at hconfigured
  rw [requiredCredential, hconfigured]

end Requests

/-! ## One call -/

section Calls

variable (env : Env) (daraja : DarajaSettings) (server : DarajaServer)

/-- How often a run records the call on the breaker. -/
def recordings {α : Type} (p : Client α) (s : Ambient × DarajaState) : Nat :=
  p.count (darajaAnswer env server) DarajaCall.records s

@[simp] theorem count_call (h : Handler ClientExn DarajaCall.Answer (Ambient × DarajaState))
    (P : DarajaCall → Bool) (c : DarajaCall) (s : Ambient × DarajaState) :
    @Prog.count ClientExn DarajaCall DarajaCall.Answer (no_index c.Answer) _ h P (call c) s =
      if P c then 1 else 0 := Prog.count_send c s

/-- A call comes back as a response or as a `DarajaProviderError`, and is recorded once. -/
structure Settled {α : Type} (p : Client α) (s : Ambient × DarajaState) : Prop where
  normalized : (∃ response, (Prog.run (darajaAnswer env server) p s).1 = .ok response) ∨
    ∃ message category, (Prog.run (darajaAnswer env server) p s).1 = .error (.provider message category)
  recorded : recordings env server p s = 1

/-- How a part of a push ends before its success is recorded: with a value of the kind that the rest
needs, or with its failure recorded and normalized. -/
def Ends {α : Type} (good : α → Prop) (p : Client α) (s : Ambient × DarajaState) : Prop :=
  match (Prog.run (darajaAnswer env server) p s).1 with
  | .ok a => good a ∧ recordings env server p s = 0
  | .error (.provider _ _) => recordings env server p s = 1
  | .error _ => False

variable {env server}

/-- A part that returns and records nothing leaves to what follows how the call ends. -/
theorem ends_bind_ok {α β : Type} {good : β → Prop} {p : Client α} {f : α → Client β} {a : α}
    {s s' : Ambient × DarajaState} (hrun : Prog.run (darajaAnswer env server) p s = (.ok a, s'))
    (hcount : recordings env server p s = 0) :
    Ends env server good (p >>= f) s ↔ Ends env server good (f a) s' := by
  unfold recordings at hcount
  simp only [Ends, recordings, Prog.run_bind, Prog.count_bind, hrun, hcount, Nat.zero_add]

/-- A part that raises and records nothing decides how the call ends, whatever was to follow. -/
theorem ends_bind_error {α β : Type} {good : β → Prop} {p : Client α} {f : α → Client β}
    {e : ClientExn} {s s' : Ambient × DarajaState}
    (hrun : Prog.run (darajaAnswer env server) p s = (.error e, s')) (any : α → Prop) :
    Ends env server good (p >>= f) s ↔ Ends env server any p s := by
  simp only [Ends, recordings, Prog.run_bind, Prog.count_bind, hrun, Nat.add_zero]
  cases e <;> exact Iff.rfl

/-- A call that raises is settled where it raises a `DarajaProviderError`, recorded once. -/
theorem settled_error {α β : Type} {p : Client α} {f : α → Client β} {e : ClientExn}
    {s s' : Ambient × DarajaState} (hrun : Prog.run (darajaAnswer env server) p s = (.error e, s'))
    (any : α → Prop) : Settled env server (p >>= f) s ↔ Ends env server any p s := by
  unfold Ends
  rw [hrun]
  constructor
  · rintro ⟨hnormalized, hrecorded⟩
    simp only [recordings, Prog.run_bind, Prog.count_bind, hrun, Nat.add_zero] at hnormalized hrecorded
    rcases hnormalized with ⟨response, h⟩ | ⟨message, category, h⟩
    · cases h
    · cases h
      exact hrecorded
  · intro h
    cases e with
    | provider message category =>
      refine ⟨Or.inr ⟨message, category, ?_⟩, ?_⟩
      · simp only [Prog.run_bind, hrun]
      · simpa only [recordings, Prog.count_bind, hrun, Nat.add_zero] using h
    | _ => exact h.elim

/-- A push is settled exactly where the part that posts it ends with a JSON object: reading anything
else raises, after the success has been recorded or before. -/
theorem settled_iff_ends (payment : InitiatePayment) (s : Ambient × DarajaState) :
    Settled env server (initiateStkPush daraja env.toRuntime payment) s ↔
      Ends env server (fun value => ∃ payload, value = .dict payload) (submitStkPush daraja payment)
        s := by
  unfold initiateStkPush
  cases hrun : Prog.run (darajaAnswer env server) (submitStkPush daraja payment) s with
  | mk answer s' =>
  cases answer with
  | error e => exact settled_error hrun _
  | ok value =>
    unfold Ends
    rw [hrun]
    have hitems : (∃ payload, value = .dict payload ∧ items value = pure payload) ∨
        ((∀ payload, value ≠ .dict payload) ∧
          items value = .raise (.attributeError "object has no attribute 'get'")) := by
      cases value with
      | dict payload => exact Or.inl ⟨payload, rfl, rfl⟩
      | _ => exact Or.inr ⟨fun _ h => PyValue.noConfusion h, rfl⟩
    rcases hitems with ⟨payload, hvalue, hitems⟩ | ⟨hvalue, hitems⟩
    · have hcount : recordings env server (do
          let value ← submitStkPush daraja payment
          call .recordSuccess
          let payload ← items value
          pure (normalizeStkPush env.toRuntime payload)) s =
            recordings env server (submitStkPush daraja payment) s + 1 := by
        simp [recordings, hrun, hitems, darajaAnswer, DarajaCall.records]
      constructor
      · rintro ⟨-, hrecorded⟩
        exact ⟨⟨payload, hvalue⟩, by omega⟩
      · rintro ⟨-, hrecorded⟩
        refine ⟨Or.inl ⟨normalizeStkPush env.toRuntime payload, ?_⟩, by omega⟩
        simp only [Prog.run_bind, hrun, run_call, darajaAnswer, hitems, Prog.run_pure]
    · constructor
      · intro h
        rcases h.normalized with ⟨response, h⟩ | ⟨message, category, h⟩
        · simp [hrun, hitems, darajaAnswer] at h
        · simp [hrun, hitems, darajaAnswer] at h
      · rintro ⟨⟨payload, h⟩, -⟩
        exact absurd h (hvalue payload)

/-! ### The requests record nothing -/

/-- A message that records nothing. -/
abbrev Unrecorded (c : DarajaCall) : Prop := c.records = false

section Sends

variable {P : DarajaCall → Prop}

theorem sends_sleepBetweenRetries (sleeps : ∀ seconds, P (.sleep seconds)) :
    (sleepBetweenRetries daraja).Sends P := by
  unfold sleepBetweenRetries
  split
  · exact (Prog.sends_send _).mpr (sleeps _)
  · exact Prog.sends_pure _

/-- By induction on the attempts that are left: each sends the request, and sleeps before the next one. -/
theorem sends_requestAttempts (sleeps : ∀ seconds, P (.sleep seconds)) {request : HttpRequest}
    (requests : P (.request request)) (retryHttpStatuses : List Nat) (left : Nat) :
    (requestAttempts daraja request retryHttpStatuses left).Sends P := by
  induction left with
  | zero => exact (Prog.sends_send _).mpr requests
  | succ left ih =>
    have hagain := (sends_sleepBetweenRetries daraja sleeps).bind fun _ => ih
    refine .bind (.attempt ((Prog.sends_send _).mpr requests)) fun answer => ?_
    cases answer with
    | error e =>
      cases e with
      | timeout text => exact hagain
      | connectError text => exact hagain
      | _ => exact Prog.sends_raise _
    | ok response =>
      dsimp only
      split
      · exact hagain
      · exact Prog.sends_pure _

theorem sends_raiseForStatus (response : HttpResponse) : (raiseForStatus response).Sends P := by
  unfold raiseForStatus
  split
  · exact Prog.sends_pure _
  · exact Prog.sends_raise _

theorem sends_json (response : HttpResponse) : (json response).Sends P := by
  unfold json
  split
  · exact Prog.sends_pure _
  · exact Prog.sends_raise _

theorem sends_items (value : PyValue) : (items value).Sends P := by
  cases value with
  | dict payload => exact Prog.sends_pure _
  | _ => exact Prog.sends_raise _

theorem sends_requiredCredential (name : CredentialName) :
    (requiredCredential daraja name).Sends P := by
  unfold requiredCredential
  split
  · exact Prog.sends_pure _
  · exact Prog.sends_raise _

/-- The token in the body of a response. -/
theorem sends_readToken (payload : PyDict) : (match lookup payload "access_token" with
    | .str accessToken =>
      if accessToken = "" then
        .raise (.valueError "Daraja OAuth response did not include an access token.")
      else pure accessToken
    | _ => .raise (.valueError "Daraja OAuth response did not include an access token.") :
      Client String).Sends P := by
  split
  · split
    · exact Prog.sends_raise _
    · exact Prog.sends_pure _
  · exact Prog.sends_raise _

/-- The exchange of the token sends its own request and sleeps; it knows nothing of the breaker. -/
theorem sends_getOauthToken (sleeps : ∀ seconds, P (.sleep seconds))
    (requests : ∀ key secret, P (.request (.oauthToken key secret))) :
    (getOauthToken daraja).Sends P := by
  refine .bind (sends_requiredCredential daraja _) fun key => ?_
  refine .bind (sends_requiredCredential daraja _) fun secret => ?_
  refine .bind (sends_requestAttempts daraja sleeps (requests key secret) _ _) fun response => ?_
  refine .bind (sends_raiseForStatus response) fun _ => ?_
  refine .bind (sends_json response) fun value => ?_
  exact .bind (sends_items value) fun payload => sends_readToken payload

end Sends

/-- The exchange of the token records neither success nor failure: that is left to the call that needs
it. -/
theorem unrecorded_getOauthToken : (getOauthToken daraja).Sends Unrecorded :=
  sends_getOauthToken daraja (fun _ => rfl) fun _ _ => rfl

/-! ### The parts of a push -/

/-- A failure of the provider is recorded once by the call that it ends. -/
theorem ends_failed {α : Type} (any : α → Prop) (message category : String)
    (s : Ambient × DarajaState) : Ends env server any (failed (pure (.provider message category))) s := by
  simp [Ends, recordings, failed, darajaAnswer, DarajaCall.records]

/-- A part that reports its failure does not return. -/
theorem run_failed {α : Type} (error : Client ClientExn) (s : Ambient × DarajaState) :
    ∃ e s', Prog.run (darajaAnswer env server) (failed error : Client α) s = (.error e, s') := by
  simp only [failed, Prog.run_bind, run_call, darajaAnswer]
  split
  · exact ⟨_, _, rfl⟩
  · exact ⟨_, _, rfl⟩

/-- The text of an HTTP error is read after the failure is recorded. -/
theorem ends_failed_description {α : Type} (any : α → Prop) (response : HttpResponse) (category : String)
    (s : Ambient × DarajaState) :
    Ends env server any (failed ((.provider · category) <$> httpErrorDescription response)) s ↔
      response.Readable := by
  rcases httpErrorDescription_cases response with
    ⟨hother, message, hmessage⟩ | ⟨hobject, reason, hreason⟩
  · refine ⟨fun h => ?_, fun h => absurd h hother⟩
    rw [hmessage] at h
    exact False.elim h
  · refine ⟨fun _ => hobject, fun _ => ?_⟩
    rw [hreason]
    exact ends_failed any reason category s

/-- Without a token, the first `try` of a push ends well where it catches the failure. -/
theorem ends_stkPushToken {e : ClientExn} (a : Ambient) (s : DarajaState)
    (h : (tokenExchange daraja server s.requests).1 = .error e) :
    (∃ e' s', Prog.run (darajaAnswer env server) (stkPushToken daraja) (a, s) = (.error e', s')) ∧
      (Ends env server (fun _ => True) (stkPushToken daraja) (a, s) ↔ HttpOutcome.TokenCaught e) := by
  obtain ⟨r, hrun, halike⟩ := run_getOauthToken env daraja server a s
  rw [h] at halike
  unfold stkPushToken
  have hattempt : Prog.run (darajaAnswer env server) (getOauthToken daraja).attempt (a, s) =
      (.ok r, a, { s with requests := (tokenExchange daraja server s.requests).2 }) := by
    rw [Prog.run_attempt, hrun]
  have hcount : recordings env server (getOauthToken daraja).attempt (a, s) = 0 := by
    unfold recordings
    rw [Prog.count_attempt, (unrecorded_getOauthToken daraja).count_eq_zero]
  rw [ends_bind_ok hattempt hcount, Prog.run_bind, hattempt]
  rcases halike with rfl | ⟨message, message', rfl, hmessage⟩
  · cases e with
    | status response => exact ⟨run_failed _ _, ends_failed_description _ _ _ _⟩
    | timeout text => exact ⟨run_failed _ _, fun _ => trivial, fun _ => ends_failed _ _ _ _⟩
    | connectError text => exact ⟨run_failed _ _, fun _ => trivial, fun _ => ends_failed _ _ _ _⟩
    | otherHttp text => exact ⟨run_failed _ _, fun _ => trivial, fun _ => ends_failed _ _ _ _⟩
    | provider message category =>
      exact ⟨⟨_, _, rfl⟩, fun hrecorded => absurd hrecorded Nat.zero_ne_one, fun h => h.elim⟩
    | _ => exact ⟨⟨_, _, rfl⟩, Iff.rfl⟩
  · cases hmessage
    exact ⟨⟨_, _, rfl⟩, Iff.rfl⟩

/-- A push is posted once and is never retried, since a second one would be a second payment. -/
theorem run_postStkPush (request : HttpRequest) (a : Ambient) (s : DarajaState) :
    Prog.run (darajaAnswer env server) (postStkPush request) (a, s) =
      ((server.answer s.requests request).read, a, { s with requests := s.requests + 1 }) := by
  simp only [postStkPush, Prog.run_bind, run_call, darajaAnswer]
  cases server.answer s.requests request with
  | response answer =>
    dsimp only [HttpOutcome.read, raiseForStatus, json]
    by_cases hsuccess : answer.Successful
    · rw [if_pos hsuccess, if_pos hsuccess]
      cases answer.body <;> rfl
    · rw [if_neg hsuccess, if_neg hsuccess]
      rfl
  | _ => rfl

/-- The second `try` of a push ends well where the answer is readable. -/
theorem ends_stkPushPayload (request : HttpRequest) (a : Ambient) (s : DarajaState) :
    Ends env server (fun value => ∃ payload, value = .dict payload) (stkPushPayload request) (a, s) ↔
      (server.answer s.requests request).Readable := by
  rw [← HttpOutcome.handled_read]
  unfold stkPushPayload
  have hattempt : Prog.run (darajaAnswer env server) (postStkPush request).attempt (a, s) =
      (.ok (server.answer s.requests request).read, a, { s with requests := s.requests + 1 }) := by
    rw [Prog.run_attempt, run_postStkPush]
  have hcount : recordings env server (postStkPush request).attempt (a, s) = 0 := by
    have hsends : (postStkPush request).Sends Unrecorded :=
      .bind ((Prog.sends_send _).mpr rfl) fun response =>
        (sends_raiseForStatus response).bind fun _ => sends_json response
    unfold recordings
    rw [Prog.count_attempt, hsends.count_eq_zero]
  rw [ends_bind_ok hattempt hcount]
  cases hread : (server.answer s.requests request).read with
  | ok value => exact ⟨fun h => h.1, fun h => ⟨h, rfl⟩⟩
  | error e =>
    cases e with
    | status response => exact ends_failed_description _ _ _ _
    | circuitOpen => exact absurd hread (HttpOutcome.read_ne_circuitOpen _)
    | provider message category =>
      exact ⟨fun hrecorded => absurd hrecorded Nat.zero_ne_one, fun h => h.elim⟩
    | attributeError message => exact Iff.rfl
    | _ => exact ⟨fun _ => trivial, fun _ => ends_failed _ _ _ _⟩

/-- A token that is granted is what the first `try` of a push returns, with nothing recorded. -/
theorem stkPushToken_granted {token : String} {n : Nat} (a : Ambient) (s : DarajaState)
    (h : tokenExchange daraja server s.requests = (.ok token, n)) :
    Prog.run (darajaAnswer env server) (stkPushToken daraja) (a, s) =
        (.ok token, a, { s with requests := n }) ∧
      recordings env server (stkPushToken daraja) (a, s) = 0 := by
  obtain ⟨r, hrun, halike⟩ := run_getOauthToken env daraja server a s
  rw [h] at halike hrun
  rcases halike with rfl | ⟨message, message', rfl, hmessage⟩
  · have hcount := (unrecorded_getOauthToken daraja).count_eq_zero
      (h := darajaAnswer env server) (a, s)
    constructor
    · simp only [stkPushToken, Prog.run_bind, Prog.run_attempt, hrun, Prog.run_pure]
    · simp [recordings, stkPushToken, hrun, hcount]
  · cases hmessage

/-- **A push that passes `before_call`** is settled exactly where its answers are readable: that of the
token request, after its retries, and that of the push itself. -/
theorem push_settled_iff (credentials : Credentials daraja) (payment : InitiatePayment)
    (s : Ambient × DarajaState) (admitted : (s.2.breaker.beforeCall env s.1).1 = .ok ()) :
    Settled env server (initiateStkPush daraja env.toRuntime payment) s ↔
      PushReadable credentials server payment s.2.requests := by
  have hbefore : Prog.run (darajaAnswer env server) (call .beforeCall) s =
      (.ok (), (s.2.breaker.beforeCall env s.1).2.1,
        { s.2 with breaker := (s.2.breaker.beforeCall env s.1).2.2 }) := by
    rw [run_call, darajaAnswer, ← admitted]
  have hquiet : recordings env server (call .beforeCall) s = 0 := count_call _ _ _ _
  rw [settled_iff_ends, submitStkPush, ends_bind_ok hbefore hquiet]
  have hexchange := tokenExchange_eq credentials server s.2.requests
  cases htoken : (tokenAnswer credentials server s.2.requests).1.read.bind accessToken with
  | error e =>
    rw [htoken] at hexchange
    obtain ⟨⟨e', s', hrun⟩, hends⟩ := @ends_stkPushToken env daraja server e
      (s.2.breaker.beforeCall env s.1).2.1
      { s.2 with breaker := (s.2.breaker.beforeCall env s.1).2.2 } (congrArg Prod.fst hexchange)
    rw [ends_bind_error hrun, hends, ← HttpOutcome.settlesToken_iff htoken]
    refine ⟨fun hsettles => ⟨hsettles, fun token hgrants => ?_⟩, fun h => h.token⟩
    cases htoken.symm.trans hgrants.read_bind
  | ok token =>
    rw [htoken] at hexchange
    obtain ⟨hrun, hcount⟩ := @stkPushToken_granted env daraja server token _
      (s.2.breaker.beforeCall env s.1).2.1
      { s.2 with breaker := (s.2.breaker.beforeCall env s.1).2.2 } hexchange
    have hgrants := HttpOutcome.grants_of_read_bind htoken
    rw [ends_bind_ok hrun hcount, requiredCredential_eq credentials, requiredCredential_eq credentials,
      requiredCredential_eq credentials]
    show Ends env server _ (stkPushPayload (.stkPush token (credentials.value .shortcode)
      (credentials.value .callbackUrl) payment)) _ ↔ _
    rw [ends_stkPushPayload]
    constructor
    · intro hreadable
      refine ⟨hgrants.settlesToken, fun other hother => ?_⟩
      cases htoken.symm.trans hother.read_bind
      exact hreadable
    · exact fun h => h.push token hgrants

/-! ### A status query -/

/-- The breaker lets a call through or answers that it is open; it raises nothing else. -/
theorem beforeCall_cases (env : Env) (a : Ambient) (breaker : DarajaCircuitBreaker) :
    (breaker.beforeCall env a).1 = .ok () ∨ (breaker.beforeCall env a).1 = .error .circuitOpen := by
  unfold DarajaCircuitBreaker.beforeCall
  split
  · dsimp only
    split
    · exact Or.inr rfl
    · exact Or.inl rfl
  · exact Or.inl rfl

/-- A status query up to the body of Daraja's answer. -/
def fetchTransactionStatus (reference : String) : Client PyValue := do
  call .beforeCall
  let token ← getOauthToken daraja
  let response ← requestWithRetries daraja (.transactionStatus token reference) [502, 503, 504]
  raiseForStatus response
  json response

/-- A status query is its fetch, and the record of its success. -/
theorem queryTransactionStatus_eq (reference : String) :
    queryTransactionStatus daraja reference = (do
      let value ← fetchTransactionStatus daraja reference
      call .recordSuccess
      pure value) := by
  simp only [fetchTransactionStatus, queryTransactionStatus, Prog.bind_assoc]

/-- The fetch records nothing by itself. -/
theorem sends_fetchTransactionStatus (reference : String) :
    (fetchTransactionStatus daraja reference).Sends Unrecorded := by
  refine .bind ((Prog.sends_send _).mpr rfl) fun _ => ?_
  refine .bind (unrecorded_getOauthToken daraja) fun token => ?_
  refine .bind (sends_requestAttempts daraja (P := Unrecorded) (fun _ => rfl) rfl _ _) fun response => ?_
  exact .bind (sends_raiseForStatus response) fun _ => sends_json response

/-- A query records its success where it obtains a body, and nothing otherwise. -/
theorem recordings_query (reference : String) (s : Ambient × DarajaState) :
    recordings env server (queryTransactionStatus daraja reference) s =
      match queryOutcome env daraja server reference s with
      | .ok _ => 1
      | .error _ => 0 := by
  have hcount := (sends_fetchTransactionStatus daraja reference).count_eq_zero
    (h := darajaAnswer env server) s
  rw [queryOutcome, queryTransactionStatus_eq]
  simp only [recordings, Prog.run_bind, Prog.count_bind, hcount, Nat.zero_add]
  rcases Prog.run (darajaAnswer env server) (fetchTransactionStatus daraja reference) s with
    ⟨e | value, s'⟩
  · rfl
  · simp [darajaAnswer, DarajaCall.records]

/-- A query that the client handles comes back as a response, recorded unless the circuit is open. -/
theorem check_recorded (reference : String) (s : Ambient × DarajaState) (queryable : Queryable daraja) :
    let outcome := queryOutcome env daraja server reference s
    let p := checkTransactionStatus daraja env.toRuntime reference
    ((∃ response, (Prog.run (darajaAnswer env server) p s).1 = .ok response) ↔ Handled outcome) ∧
      (Handled outcome → outcome ≠ .error .circuitOpen → recordings env server p s = 1) := by
  intro outcome p
  have hpayload : transactionStatusPayload daraja = pure () :=
    (transactionStatusPayload_cases daraja).elim (fun h => h.2) fun h => absurd queryable h.1
  have hrecordings := @recordings_query env daraja server reference s
  unfold recordings at hrecordings
  cases hquery : Prog.run (darajaAnswer env server) (queryTransactionStatus daraja reference) s with
  | mk r s' =>
  have houtcome : outcome = r := congrArg Prod.fst hquery
  rw [show queryOutcome env daraja server reference s = r from houtcome] at hrecordings
  rw [houtcome]
  simp only [p, recordings, checkTransactionStatus, hpayload, Prog.run_bind, Prog.run_pure,
    Prog.run_attempt, Prog.count_bind, Prog.count_pure, Prog.count_attempt, hquery, hrecordings,
    Nat.zero_add]
  cases r with
  | ok value =>
    cases value with
    | dict payload => exact ⟨⟨fun _ => ⟨payload, rfl⟩, fun _ => ⟨_, rfl⟩⟩, fun _ _ => rfl⟩
    | _ =>
      refine ⟨⟨?_, ?_⟩, fun _ _ => rfl⟩
      · rintro ⟨response, h⟩
        cases h
      · rintro ⟨payload, h⟩
        cases h
  | error e =>
    cases e with
    | status response =>
      rcases httpErrorDescription_cases response with
        ⟨hother, message, hmessage⟩ | ⟨hobject, reason, hreason⟩
      · refine ⟨⟨?_, fun h => absurd h hother⟩, fun h => absurd h hother⟩
        rintro ⟨response, h⟩
        simp [hmessage, darajaAnswer] at h
      · refine ⟨⟨fun _ => hobject, fun _ => ⟨failedTransactionStatusResponse reference reason
          (errorCategoryForStatus response.statusCode), ?_⟩⟩, fun _ _ => ?_⟩
        · simp only [hreason, Prog.run_bind, run_call, darajaAnswer, Prog.run_pure]
        · simp [hreason, darajaAnswer, DarajaCall.records]
    | circuitOpen => exact ⟨⟨fun _ => trivial, fun _ => ⟨_, rfl⟩⟩, fun _ h => absurd rfl h⟩
    | provider message category =>
      refine ⟨⟨?_, False.elim⟩, False.elim⟩
      rintro ⟨response, h⟩
      cases h
    | attributeError message =>
      refine ⟨⟨?_, False.elim⟩, False.elim⟩
      rintro ⟨response, h⟩
      cases h
    | _ => exact ⟨⟨fun _ => trivial, fun _ => ⟨_, rfl⟩⟩, fun _ _ => rfl⟩

/-- What Daraja's answers say of the exchange behind a query. -/
theorem handled_exchange (credentials : Credentials daraja) (reference : String)
    (s : Ambient × DarajaState) :
    Handled (exchange env daraja server reference s) ↔
      ((s.2.breaker.beforeCall env s.1).1 = .ok () →
        QueryReadable credentials server reference s.2.requests) := by
  unfold exchange
  rcases beforeCall_cases env s.1 s.2.breaker with hadmitted | hopen
  · rw [hadmitted, tokenExchange_eq credentials]
    simp only [forall_const]
    cases htoken : (tokenAnswer credentials server s.2.requests).1.read.bind accessToken with
    | error e =>
      dsimp only
      rw [HttpOutcome.handled_token htoken]
      refine ⟨fun hreadable => ⟨hreadable, fun token hgrants => ?_⟩, fun h => h.token⟩
      cases htoken.symm.trans hgrants.read_bind
    | ok token =>
      have hgrants := HttpOutcome.grants_of_read_bind htoken
      dsimp only
      rw [HttpOutcome.handled_read]
      constructor
      · intro hreadable
        refine ⟨hgrants.settlesToken.readable, fun other hother => ?_⟩
        cases htoken.symm.trans hother.read_bind
        exact hreadable
      · exact fun h => h.query token hgrants
  · rw [hopen]
    refine ⟨fun _ hadmitted => ?_, fun _ => trivial⟩
    cases hadmitted

/-- A query that the circuit lets through does not end in an open circuit. -/
theorem exchange_ne_circuitOpen (credentials : Credentials daraja) (reference : String)
    (s : Ambient × DarajaState) (admitted : (s.2.breaker.beforeCall env s.1).1 = .ok ()) :
    exchange env daraja server reference s ≠ .error .circuitOpen := by
  unfold exchange
  rw [admitted, tokenExchange_eq credentials]
  cases htoken : (tokenAnswer credentials server s.2.requests).1.read.bind accessToken with
  | error e =>
    intro h
    cases h
    exact HttpOutcome.token_ne_circuitOpen _ htoken
  | ok token => exact HttpOutcome.read_ne_circuitOpen _

end Calls

/-- **Which calls of the client are settled.** With every setting present, a push that passes
`before_call` is a response or a `DarajaProviderError`, recorded once, exactly where its answers are
readable and a token request that succeeds grants a token; a status query is a response, recorded once
where the circuit lets it through, exactly where its answers are readable. -/
theorem calls_settle_iff (env : Env) (daraja : DarajaSettings) (server : DarajaServer)
    (credentials : Credentials daraja) (queryable : Queryable daraja) (payment : InitiatePayment)
    (reference : String) (s : Ambient × DarajaState) :
    let admitted := (s.2.breaker.beforeCall env s.1).1 = .ok ()
    let query := checkTransactionStatus daraja env.toRuntime reference
    (admitted → (Settled env server (initiateStkPush daraja env.toRuntime payment) s ↔
      PushReadable credentials server payment s.2.requests)) ∧
    (((∃ response, (Prog.run (darajaAnswer env server) query s).1 = .ok response) ∧
        (admitted → recordings env server query s = 1)) ↔
      (admitted → QueryReadable credentials server reference s.2.requests)) := by
  intro admitted query
  refine ⟨push_settled_iff daraja credentials payment s, ?_⟩
  obtain ⟨hreturns, hrecorded⟩ := check_recorded daraja reference s queryable
  have halike := queryOutcome_alike env daraja server reference s
  rw [← handled_exchange daraja credentials reference s, ← halike.handled, ← hreturns]
  refine ⟨fun h => h.1, fun h => ⟨h, fun hadmitted => hrecorded (hreturns.mp h) fun hopen => ?_⟩⟩
  rcases halike with hsame | ⟨message, message', hvalue, -⟩
  · exact exchange_ne_circuitOpen daraja credentials reference s hadmitted (hsame ▸ hopen)
  · cases hvalue.symm.trans hopen

/-! ## A token request answered with a list -/

/-- A client with every setting. -/
def configuredSettings : DarajaSettings where
  darajaMode := "sandbox"
  credential _ := some "configured"
  darajaInitiatorName := some "initiator"
  darajaSecurityCredential := some "credential"
  darajaTransactionStatusResultUrl := some "https://example.com/result"
  darajaTransactionStatusTimeoutUrl := some "https://example.com/timeout"

/-- Its credentials. -/
def configuredCredentials : Credentials configuredSettings where
  value _ := "configured"
  configured _ := rfl

theorem queryable_configured : Queryable configuredSettings := ⟨rfl, rfl, rfl, rfl, rfl⟩

/-- Daraja, answering every request with status 200 and an empty list. -/
def listServer : DarajaServer where
  answer _ _ := .response { statusCode := 200, body := some (.list []) }
  pushes _ := false

/-- Both methods raise `AttributeError` at a token request answered with a list, and record nothing. -/
theorem token_list_escapes :
    (({} : DarajaCircuitBreaker).beforeCall .still {}).1 = .ok () ∧
    ¬ Settled .still listServer
      (initiateStkPush configuredSettings Env.still.toRuntime payTenShillings) ({}, {}) ∧
    recordings .still listServer
      (initiateStkPush configuredSettings Env.still.toRuntime payTenShillings) ({}, {}) = 0 ∧
    (Prog.run (darajaAnswer .still listServer)
      (checkTransactionStatus configuredSettings Env.still.toRuntime "ws_CO_1") ({}, {})).1 =
        .error (.attributeError "object has no attribute 'get'") ∧
    recordings .still listServer
      (checkTransactionStatus configuredSettings Env.still.toRuntime "ws_CO_1") ({}, {}) = 0 := by
  refine ⟨rfl, ?_, rfl, rfl, rfl⟩
  rintro ⟨-, hrecorded⟩
  exact absurd hrecorded (by decide)

/-- With a token and an accepting answer, both methods are settled. -/
theorem answered_calls_settle :
    let server := answeringServer acceptBody true
    Settled .still server
      (initiateStkPush configuredSettings Env.still.toRuntime payTenShillings) ({}, {}) ∧
    recordings .still server
      (checkTransactionStatus configuredSettings Env.still.toRuntime "ws_CO_1") ({}, {}) = 1 := by
  intro server
  obtain ⟨hpush, hquery⟩ := calls_settle_iff .still configuredSettings server configuredCredentials
    queryable_configured payTenShillings "ws_CO_1" ({}, {})
  have hgrants : (tokenAnswer configuredCredentials server 0).1.Grants "token" :=
    ⟨_, [("access_token", .str "token")], rfl, by decide, rfl, rfl, by decide⟩
  have haccepted : (server.answer 0 (.transactionStatus "" "")).Readable :=
    HttpOutcome.readable_response.mpr fun value hvalue => ⟨acceptBody, (Option.some.inj hvalue).symm⟩
  exact ⟨(hpush rfl).mpr ⟨hgrants.settlesToken, fun _ _ => haccepted⟩,
    (hquery.mpr fun _ => ⟨hgrants.settlesToken.readable, fun _ _ => haccepted⟩).2 rfl⟩

end RealDarajaClient

end MpesaMcp
