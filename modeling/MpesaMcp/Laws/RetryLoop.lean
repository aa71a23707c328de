import MpesaMcp.Laws.DarajaCalls

/-!
# The retry loop

The loop of `_request_with_retries` is a `retry` whose budget is `attempts` (`requestLoop_eq`), whatever
comes after the loop, and the client makes its requests through that loop (`requestWithRetries_eq`).
`first_conclusive_outcome` says which outcome decides, and what that means for a push.
-/

set_option autoImplicit false

namespace MpesaMcp

open Library Python

namespace RealDarajaClient

/-! ## The loop -/

section Loop

variable (retryHttpStatuses : List Nat)

/-- An outcome that the loop tries again. -/
def again : Except ClientExn HttpResponse → Bool
  | .error (.timeout _) => true
  | .error (.connectError _) => true
  | .error _ => false
  | .ok response => decide (response.statusCode ∈ retryHttpStatuses)

/-- The first outcome that is neither a timeout, nor a connect error, nor a response with a retry
status, is conclusive. -/
def Conclusive (outcome : Except ClientExn HttpResponse) : Prop :=
  (∀ text, outcome ≠ .error (.timeout text)) ∧ (∀ text, outcome ≠ .error (.connectError text)) ∧
    ∀ response, outcome = .ok response → response.statusCode ∉ retryHttpStatuses

theorem conclusive_iff (outcome : Except ClientExn HttpResponse) :
    Conclusive retryHttpStatuses outcome ↔ again retryHttpStatuses outcome = false := by
  cases outcome with
  | ok response => simp [Conclusive, again]
  | error e => cases e <;> simp [Conclusive, again]

/-- The loop from any attempt on: what comes after it, and what exception it remembers, is nothing that
a run can see. -/
theorem requestLoop_eq (after : Option ClientExn → Prog ClientExn (Retrying.Answer HttpResponse)
    HttpResponse) (left start : Nat) (lastExc : Option ClientExn) :
    requestLoop retryHttpStatuses (start + left + 1 : Nat) after (List.range' start (left + 1)) lastExc =
      Retrying.retry (again retryHttpStatuses) left := by
  induction left generalizing start lastExc with
  | zero =>
    -- the last attempt: nothing is tried again
    have hlast : ¬ ((start : Int) < ((start + 0 + 1 : Nat) : Int) - 1) := by omega
    rw [List.range'_succ, requestLoop, Retrying.retry]
    refine Eq.trans ?_ (Prog.attempt_bind_ofExcept Retrying.tryOnce)
    refine congrArg (Retrying.tryOnce.attempt >>= ·) (funext fun outcome => ?_)
    cases outcome with
    | ok response => exact if_neg fun h => hlast h.2
    | error e =>
      cases e with
      | timeout text => exact if_neg hlast
      | connectError text => exact if_neg hlast
      | _ => rfl
  | succ left ih =>
    have hmore : (start : Int) < ((start + (left + 1) + 1 : Nat) : Int) - 1 := by omega
    have hagain : ∀ lastExc, (Retrying.waitOnce >>= fun _ =>
        requestLoop retryHttpStatuses (start + (left + 1) + 1 : Nat) after
          (List.range' (start + 1) (left + 1)) lastExc) =
        Retrying.waitOnce >>= fun _ => Retrying.retry (again retryHttpStatuses) left := by
      intro lastExc
      rw [← ih (start + 1) lastExc, Nat.add_right_comm start 1 left, Nat.add_assoc start left 1]
    rw [List.range'_succ, requestLoop, Retrying.retry]
    refine congrArg (Retrying.tryOnce.attempt >>= ·) (funext fun outcome => ?_)
    cases outcome with
    | ok response =>
      by_cases hstatus : response.statusCode ∈ retryHttpStatuses
      · have hretried : again retryHttpStatuses (.ok response) = true := decide_eq_true hstatus
        exact (if_pos ⟨hstatus, hmore⟩).trans ((hagain lastExc).trans (if_pos hretried).symm)
      · have hdone : ¬ again retryHttpStatuses (.ok response) = true := by simpa [again] using hstatus
        exact (if_neg fun h => hstatus h.1).trans (if_neg hdone).symm
    | error e =>
      cases e with
      | timeout text => exact (if_pos hmore).trans (hagain _)
      | connectError text => exact (if_pos hmore).trans (hagain _)
      | _ => rfl

end Loop

/-! ## The client's requests -/

section Requests

variable (settings : DarajaSettings) (request : HttpRequest) (retryHttpStatuses : List Nat)

/-- What the loop calls. -/
def retryingMethods : (m : Retrying) → Client (Retrying.Answer HttpResponse m)
  | .attempt => call (.request request)
  | .pause => sleepBetweenRetries settings

theorem requestAttempts_eq (left : Nat) :
    requestAttempts settings request retryHttpStatuses left =
      (Retrying.retry (again retryHttpStatuses) left).inline (retryingMethods settings request) := by
  have hattempt : Retrying.tryOnce.inline (retryingMethods settings request) =
      call (.request request) := Prog.inline_send (retryingMethods settings request) Retrying.attempt
  have hpause : Retrying.waitOnce.inline (retryingMethods settings request) =
      sleepBetweenRetries settings := Prog.inline_send (retryingMethods settings request) Retrying.pause
  induction left with
  | zero => exact hattempt.symm
  | succ left ih =>
    rw [Retrying.retry, Prog.inline_bind, Prog.inline_attempt, hattempt, requestAttempts]
    refine congrArg ((call (.request request)).attempt >>= ·) (funext fun outcome => ?_)
    have hagain : (sleepBetweenRetries settings >>= fun _ =>
        requestAttempts settings request retryHttpStatuses left) =
        (Retrying.waitOnce >>= fun _ => Retrying.retry (again retryHttpStatuses) left).inline
          (retryingMethods settings request) := by
      rw [Prog.inline_bind, hpause, ih]
    cases outcome with
    | ok response =>
      by_cases hstatus : response.statusCode ∈ retryHttpStatuses
      · have hretried : again retryHttpStatuses (.ok response) = true := decide_eq_true hstatus
        rw [if_pos hretried, ← hagain]
        exact if_pos hstatus
      · have hdone : ¬ again retryHttpStatuses (.ok response) = true := by simpa [again] using hstatus
        rw [if_neg hdone]
        exact if_neg hstatus
    | error e =>
      cases e with
      | timeout text => exact hagain
      | connectError text => exact hagain
      | _ => rfl

/-- The attempts of a client, as a number. -/
theorem attempts_eq : attempts settings = ((max 0 settings.darajaMaxRetries).toNat + 1 : Nat) := by
  unfold attempts
  omega

/-- `_request_with_retries` as the source has it is the one of the client. -/
theorem requestWithRetries_eq (after : Option ClientExn → Prog ClientExn
    (Retrying.Answer HttpResponse) HttpResponse) :
    requestWithRetries settings request retryHttpStatuses =
      (requestLoop retryHttpStatuses (attempts settings) after
        (List.range (attempts settings).toNat) none).inline (retryingMethods settings request) := by
  rw [requestWithRetries, requestAttempts_eq, attempts_eq, List.range_eq_range']
  have hloop := requestLoop_eq retryHttpStatuses after (max 0 settings.darajaMaxRetries).toNat 0 none
  rw [Nat.zero_add] at hloop
  rw [← hloop]
  rfl

end Requests

/-! ## How often a push asks Daraja -/

/-- A request for a token. -/
def asksToken : DarajaCall → Bool
  | .request (.oauthToken _ _) => true
  | _ => false

/-- The POST of a push. -/
def postsPush : DarajaCall → Bool
  | .request (.stkPush _ _ _ _) => true
  | _ => false

section Pushes

variable {σ : Type} (h : Handler ClientExn DarajaCall.Answer σ) (settings : DarajaSettings)

/-- A loop makes no more requests than it has attempts. -/
theorem count_requestAttempts_le {P : DarajaCall → Bool} (sleeps : ∀ seconds, P (.sleep seconds) = false)
    (request : HttpRequest) (retryHttpStatuses : List Nat) (left : Nat) (s : σ) :
    (requestAttempts settings request retryHttpStatuses left).count h P s ≤ left + 1 := by
  have hone : ∀ s, (call (.request request)).count h P s ≤ 1 := by
    intro s
    rw [call, Prog.count_send]
    split <;> omega
  induction left generalizing s with
  | zero => exact hone s
  | succ left ih =>
    have hagain : ∀ s, (sleepBetweenRetries settings >>= fun _ =>
        requestAttempts settings request retryHttpStatuses left).count h P s ≤ left + 1 := by
      intro s
      exact Prog.count_bind_le_of_sends (sends_sleepBetweenRetries settings sleeps) fun _ s' => ih s'
    have hle : (requestAttempts settings request retryHttpStatuses (left + 1)).count h P s ≤
        1 + (left + 1) := by
      refine Prog.count_bind_le ((Prog.count_attempt _ _).trans_le (hone s)) fun outcome s' => ?_
      cases outcome with
      | ok response =>
        dsimp only
        split
        · exact hagain s'
        · exact Nat.zero_le _
      | error e =>
        cases e with
        | timeout text => exact hagain s'
        | connectError text => exact hagain s'
        | _ => exact Nat.zero_le _
    omega

theorem count_getOauthToken_le (s : σ) :
    (getOauthToken settings).count h asksToken s ≤ (attempts settings).toNat := by
  have hbudget : (attempts settings).toNat = (max 0 settings.darajaMaxRetries).toNat + 1 := by
    rw [attempts_eq, Int.toNat_natCast]
  refine Prog.count_bind_le_of_sends (sends_requiredCredential settings _) fun key s => ?_
  refine Prog.count_bind_le_of_sends (sends_requiredCredential settings _) fun secret s => ?_
  refine Prog.count_bind_sends_le (hbudget ▸
    count_requestAttempts_le h settings (fun _ => rfl) _ _ _ s) fun response => ?_
  refine .bind (sends_raiseForStatus response) fun _ => ?_
  refine .bind (sends_json response) fun value => ?_
  exact .bind (sends_items value) fun payload => sends_readToken payload

/-- A message that records a failure. -/
abbrev Records (c : DarajaCall) : Prop := c = .recordFailure

theorem sends_httpErrorDescription (response : HttpResponse) :
    (httpErrorDescription response).Sends Records := by
  unfold httpErrorDescription
  split
  · exact Prog.sends_pure _
  · refine .bind (sends_items _) fun payload => ?_
    split
    · split
      · exact Prog.sends_pure _
      · exact Prog.sends_pure _
    · exact Prog.sends_pure _

theorem sends_failed {α : Type} {error : Client ClientExn} (herror : error.Sends Records) :
    (failed error : Client α).Sends Records :=
  .bind ((Prog.sends_send _).mpr rfl) fun _ => .bind herror fun _ => Prog.sends_raise _

/-- The first `try` of a push requests a token; its clauses make no request. -/
theorem stkPushToken_eq : ∃ clauses : Except ClientExn String → Client String,
    stkPushToken settings = (getOauthToken settings).attempt >>= clauses ∧
      ∀ outcome, (clauses outcome).Sends Records := by
  refine ⟨_, rfl, fun outcome => ?_⟩
  cases outcome with
  | ok token => exact Prog.sends_pure _
  | error e =>
    cases e with
    | status response => exact sends_failed (.map (sends_httpErrorDescription response) _)
    | timeout text => exact sends_failed (Prog.sends_pure _)
    | connectError text => exact sends_failed (Prog.sends_pure _)
    | otherHttp text => exact sends_failed (Prog.sends_pure _)
    | _ => exact Prog.sends_raise _

/-- The second `try` of a push posts it; its clauses make no request. -/
theorem stkPushPayload_eq (request : HttpRequest) : ∃ clauses : Except ClientExn PyValue → Client PyValue,
    stkPushPayload request = (postStkPush request).attempt >>= clauses ∧
      ∀ outcome, (clauses outcome).Sends Records := by
  refine ⟨_, rfl, fun outcome => ?_⟩
  cases outcome with
  | ok payload => exact Prog.sends_pure _
  | error e =>
    cases e with
    | status response => exact sends_failed (.map (sends_httpErrorDescription response) _)
    | timeout text => exact sends_failed (Prog.sends_pure _)
    | connectError text => exact sends_failed (Prog.sends_pure _)
    | otherHttp text => exact sends_failed (Prog.sends_pure _)
    | valueError message => exact sends_failed (Prog.sends_pure _)
    | _ => exact Prog.sends_raise _

/-- What follows the answer to a push makes no request. -/
theorem sends_afterPush (py : Runtime) (value : PyValue) {P : DarajaCall → Prop}
    (records : P .recordSuccess) : (do
      call .recordSuccess
      let payload ← items value
      pure (normalizeStkPush py payload) : Client StkPushResponse).Sends P :=
  .bind ((Prog.sends_send _).mpr records) fun _ => .bind (sends_items value) fun _ => Prog.sends_pure _

theorem count_tokenRequests_le (py : Runtime) (payment : InitiatePayment) (s : σ) :
    (initiateStkPush settings py payment).count h asksToken s ≤ (attempts settings).toNat := by
  obtain ⟨clauses, htoken, hclauses⟩ := stkPushToken_eq settings
  refine Prog.count_bind_sends_le ?_ fun value => sends_afterPush py value rfl
  refine Prog.count_bind_le_of_sends ((Prog.sends_send _).mpr rfl) fun _ s => ?_
  refine Prog.count_bind_sends_le ?_ fun token => ?_
  · rw [htoken]
    refine Prog.count_bind_sends_le ?_ fun outcome => (hclauses outcome).mono fun _ hc => hc ▸ rfl
    rw [Prog.count_attempt]
    exact count_getOauthToken_le h settings s
  · refine .bind (sends_requiredCredential settings _) fun shortcode => ?_
    refine .bind (sends_requiredCredential settings _) fun passkey => ?_
    refine .bind (sends_requiredCredential settings _) fun callbackUrl => ?_
    obtain ⟨clauses, hpayload, hclauses⟩ :=
      stkPushPayload_eq (.stkPush token shortcode callbackUrl payment)
    rw [hpayload]
    refine .bind (.attempt ?_) fun outcome => (hclauses outcome).mono fun _ hc => hc ▸ rfl
    refine .bind ((Prog.sends_send _).mpr rfl) fun response => ?_
    exact .bind (sends_raiseForStatus response) fun _ => sends_json response

theorem count_pushPosts_le (py : Runtime) (payment : InitiatePayment) (s : σ) :
    (initiateStkPush settings py payment).count h postsPush s ≤ 1 := by
  obtain ⟨clauses, htoken, hclauses⟩ := stkPushToken_eq settings
  refine Prog.count_bind_sends_le ?_ fun value => sends_afterPush py value rfl
  refine Prog.count_bind_le_of_sends ((Prog.sends_send _).mpr rfl) fun _ s => ?_
  refine Prog.count_bind_le_of_sends ?_ fun token s => ?_
  · rw [htoken]
    refine .bind (.attempt (sends_getOauthToken settings (fun _ => rfl) fun _ _ => rfl)) fun outcome => ?_
    exact (hclauses outcome).mono fun _ hc => hc ▸ rfl
  · refine Prog.count_bind_le_of_sends (sends_requiredCredential settings _) fun shortcode s => ?_
    refine Prog.count_bind_le_of_sends (sends_requiredCredential settings _) fun passkey s => ?_
    refine Prog.count_bind_le_of_sends (sends_requiredCredential settings _) fun callbackUrl s => ?_
    obtain ⟨clauses, hpayload, hclauses⟩ :=
      stkPushPayload_eq (.stkPush token shortcode callbackUrl payment)
    rw [hpayload]
    refine Prog.count_bind_sends_le ?_ fun outcome => (hclauses outcome).mono fun _ hc => hc ▸ rfl
    rw [Prog.count_attempt]
    refine Prog.count_bind_sends_le ?_ fun response =>
      .bind (sends_raiseForStatus response) fun _ => sends_json response
    rw [call, Prog.count_send]
    exact Nat.le_refl _

end Pushes

end RealDarajaClient

open RealDarajaClient

/-- **The retry loop returns the first conclusive outcome**, or the last one that its attempts allow, after
one pause fewer than attempts; nothing after the loop is reached. A push asks for a token at most so
often, and posts at most once. -/
theorem first_conclusive_outcome (settings : DarajaSettings) (retryHttpStatuses : List Nat) :
    let n := (max 0 settings.darajaMaxRetries + 1).toNat
    let loop := requestLoop retryHttpStatuses (attempts settings) afterLoop
      (List.range (attempts settings).toNat) none
    (∀ outcomes : Nat → Except ClientExn HttpResponse, ∃ k,
      IsLeast {k | k = n ∨ ∃ i, k = i + 1 ∧ Conclusive retryHttpStatuses (outcomes i)} k ∧
      loop.count (Retrying.inTurn outcomes) (fun m => decide (m = .attempt)) 0 = k ∧
      loop.count (Retrying.inTurn outcomes) (fun m => decide (m = .pause)) 0 = k - 1 ∧
      (Prog.run (Retrying.inTurn outcomes) loop 0).1 = outcomes (k - 1)) ∧
    (∀ after, requestLoop retryHttpStatuses (attempts settings) after
      (List.range (attempts settings).toNat) none = loop) ∧
    (∀ request, requestWithRetries settings request retryHttpStatuses =
      loop.inline (retryingMethods settings request)) ∧
    ∀ (σ : Type) (h : Handler ClientExn DarajaCall.Answer σ) (py : Runtime) (payment : InitiatePayment)
      (s : σ),
      (initiateStkPush settings py payment).count h asksToken s ≤ n ∧
      (initiateStkPush settings py payment).count h postsPush s ≤ 1 := by
  intro n loop
  have hloop : ∀ after, requestLoop retryHttpStatuses (attempts settings) after
      (List.range (attempts settings).toNat) none =
      Retrying.retry (again retryHttpStatuses) (max 0 settings.darajaMaxRetries).toNat := by
    intro after
    rw [attempts_eq, List.range_eq_range', Int.toNat_natCast, ← requestLoop_eq _ after _ 0 none,
      Nat.zero_add]
  refine ⟨fun outcomes => ?_, fun after => (hloop after).trans (hloop afterLoop).symm,
    fun request => requestWithRetries_eq settings request retryHttpStatuses afterLoop,
    fun σ h py payment s => ⟨count_tokenRequests_le h settings py payment s,
      count_pushPosts_le h settings py payment s⟩⟩
  have hleast := Retrying.isLeast_attemptsMade (again retryHttpStatuses) outcomes
    (max 0 settings.darajaMaxRetries).toNat 0
  obtain ⟨hrun, hattempts, hpauses⟩ := Retrying.run_retry (again retryHttpStatuses) outcomes
    (max 0 settings.darajaMaxRetries).toNat 0
  have hbudget : n = (max 0 settings.darajaMaxRetries).toNat + 1 := by omega
  simp only [Nat.zero_add, ← conclusive_iff, ← hbudget] at hleast hrun
  refine ⟨_, hleast, ?_⟩
  rw [show loop = _ from hloop afterLoop]
  exact ⟨hattempts, hpauses, congrArg Prod.fst hrun⟩

end MpesaMcp
