import MpesaMcp.Laws.ProviderDecline
import MpesaMcp.Laws.RetryLoop
import MpesaMcp.Laws.SeparationOfDuties
import MpesaMcp.Laws.StatusQueries
import Mathlib.Tactic.Linarith

/-!
# The load on a peer that is down

While Daraja cannot be reached, every call that the breaker lets through fails. `Charge` counts these
calls on the breaker: up to the threshold they come freely, and from then on each one waits for the
recovery time. A call makes as many requests as the retry loop has attempts at most. So whatever reaches
the server, the requests of an outage are bounded by its duration (`outage_load_bounded`).
-/

set_option autoImplicit false

namespace MpesaMcp

open Library Python RealDarajaClient

/-! ## Outages -/

/-- No response came. -/
def HttpOutcome.Unreachable : HttpOutcome → Prop
  | .response _ => False
  | _ => True

/-- From the n-th request on, the peer cannot be reached. -/
def DarajaServer.DownFrom (server : DarajaServer) (n : Nat) : Prop :=
  ∀ m, n ≤ m → ∀ request, (server.answer m request).Unreachable

/-- The exceptions of a request without a response. -/
def ClientExn.Transport : ClientExn → Prop
  | .timeout _ => True
  | .connectError _ => True
  | .otherHttp _ => True
  | _ => False

/-- What `time.monotonic()` reads next. -/
def Ambient.monotonicNow (env : Env) (a : Ambient) : ℚ := env.monotonic a.monotonicReads

theorem Ambient.Forward.monotonicNow_le {a b : Ambient} (h : a.Forward b) (env : Env) :
    a.monotonicNow env ≤ b.monotonicNow env :=
  env.monotonic_mono h.monotonicReads

/-! ## The breaker -/

/-- A breaker that has let `n` calls fail since a time: each one past the threshold has waited for the
recovery time. -/
structure Charge (failureThreshold : Int) (recoverySeconds since now : ℚ) (n : Nat)
    (breaker : DarajaCircuitBreaker) : Prop where
  enabled : breaker.enabled = true
  threshold : breaker.failureThreshold = failureThreshold
  recovery : breaker.recoverySeconds = recoverySeconds
  closed : breaker.state = .closed →
    n ≤ breaker.failureCount ∧ (breaker.failureCount : Int) < max 1 failureThreshold
  tripped : breaker.state ≠ .closed → max 1 failureThreshold ≤ breaker.failureCount ∧
    ∃ openedAt, breaker.openedAt = some openedAt ∧ openedAt ≤ now ∧
      (breaker.state = .halfOpen → recoverySeconds ≤ now - openedAt) ∧
      (n = 0 ∨ ((n : ℚ) - (max 1 failureThreshold : Int)) * recoverySeconds ≤ openedAt - since)

namespace Charge

variable {failureThreshold : Int} {recoverySeconds since now later : ℚ} {n : Nat}
  {breaker : DarajaCircuitBreaker} {env : Env} {a : Ambient}

/-- A new breaker. -/
theorem new (since now : ℚ) : Charge failureThreshold recoverySeconds since now 0
    { failureThreshold := failureThreshold, recoverySeconds := recoverySeconds } where
  enabled := rfl
  threshold := rfl
  recovery := rfl
  closed _ := ⟨Nat.le_refl _, by simp⟩
  tripped opened := absurd rfl opened

theorem mono (h : Charge failureThreshold recoverySeconds since now n breaker) (hle : now ≤ later) :
    Charge failureThreshold recoverySeconds since later n breaker := by
  refine { h with tripped := fun htripped => ?_ }
  obtain ⟨hfull, openedAt, hopened, hpast, hhalf, hspent⟩ := h.tripped htripped
  refine ⟨hfull, openedAt, hopened, hpast.trans hle, fun hstate => ?_, hspent⟩
  have hover := hhalf hstate
  linarith

/-- Where no call of the outage has failed yet, its start can be taken later. -/
theorem restart (h : Charge failureThreshold recoverySeconds since now 0 breaker) (since' : ℚ) :
    Charge failureThreshold recoverySeconds since' now 0 breaker := by
  refine { h with tripped := fun htripped => ?_ }
  obtain ⟨hfull, openedAt, hopened, hpast, hhalf, -⟩ := h.tripped htripped
  exact ⟨hfull, openedAt, hopened, hpast, hhalf, Or.inl rfl⟩

/-- Up to the threshold, the calls come freely. -/
theorem free_le (nonneg : 0 ≤ recoverySeconds) (elapsed : since ≤ now)
    (free : (n : Int) ≤ max 1 failureThreshold) :
    ((n : ℚ) - (max 1 failureThreshold : Int)) * recoverySeconds ≤ now - since := by
  have hfree : (n : ℚ) ≤ (max 1 failureThreshold : Int) := by exact_mod_cast free
  calc ((n : ℚ) - (max 1 failureThreshold : Int)) * recoverySeconds
      ≤ 0 := mul_nonpos_of_nonpos_of_nonneg (sub_nonpos.mpr hfree) nonneg
    _ ≤ now - since := sub_nonneg.mpr elapsed

/-- **The failures of an outage**: as many as the threshold, and one for each recovery time. -/
theorem failures_le (h : Charge failureThreshold recoverySeconds since now n breaker)
    (nonneg : 0 ≤ recoverySeconds) (elapsed : since ≤ now) :
    (n : ℚ) * recoverySeconds ≤
      (max 1 failureThreshold : Int) * recoverySeconds + (now - since) := by
  have hspent : ((n : ℚ) - (max 1 failureThreshold : Int)) * recoverySeconds ≤ now - since := by
    by_cases hclosed : breaker.state = .closed
    · obtain ⟨hcount, hshort⟩ := h.closed hclosed
      exact free_le nonneg elapsed (by omega)
    · obtain ⟨-, openedAt, -, hpast, -, rfl | hspent⟩ := h.tripped hclosed
      · exact free_le nonneg elapsed (by omega)
      · linarith
  rw [sub_mul] at hspent
  linarith

/-- One more call, once it is let through: it is free, or it has waited for the recovery time. -/
theorem admitted_le (h : Charge failureThreshold recoverySeconds since now n breaker)
    (nonneg : 0 ≤ recoverySeconds) (elapsed : since ≤ now) (admitted : breaker.state ≠ .opened) :
    (((n + 1 : Nat) : ℚ) - (max 1 failureThreshold : Int)) * recoverySeconds ≤ now - since := by
  cases hstate : breaker.state with
  | opened => exact absurd hstate admitted
  | closed =>
    obtain ⟨hcount, hshort⟩ := h.closed hstate
    exact free_le nonneg elapsed (by omega)
  | halfOpen =>
    have htripped : breaker.state ≠ .closed := by
      rw [hstate]
      intro hclosed
      cases hclosed
    obtain ⟨-, openedAt, -, hpast, hhalf, rfl | hspent⟩ := h.tripped htripped
    · exact free_le nonneg elapsed (by omega)
    · have hover := hhalf hstate
      rw [Nat.cast_add, Nat.cast_one, add_sub_right_comm, add_mul, one_mul]
      linarith

/-- Reading the state: the breaker that lets a call through is not open. -/
theorem beforeCall (h : Charge failureThreshold recoverySeconds since (a.monotonicNow env) n breaker) :
    let r := breaker.beforeCall env a
    Charge failureThreshold recoverySeconds since (r.2.1.monotonicNow env) n r.2.2 ∧
      (r.1 = .ok () → r.2.2.state ≠ .opened) := by
  intro r
  have hr : r = breaker.beforeCall env a := rfl
  unfold DarajaCircuitBreaker.beforeCall DarajaCircuitBreaker.readState at hr
  rw [if_pos h.enabled] at hr
  by_cases hstate : breaker.state = .opened
  · have hne : breaker.state ≠ .closed := by
      rw [hstate]
      intro hclosed
      cases hclosed
    obtain ⟨hfull, openedAt, hopened, hpast, -, hspent⟩ := h.tripped hne
    have hforward := (a.forward_monotonic env).monotonicNow_le env
    simp only [hstate, hopened] at hr
    by_cases hover : breaker.recoverySeconds ≤ (a.monotonic env).1 - openedAt
    · -- the recovery time is over
      rw [if_pos hover] at hr
      have hr' : r = (.ok (), (a.monotonic env).2,
          { breaker with state := .halfOpen, openedAt := some openedAt }) := by
        rw [hr]
        exact if_neg fun hopen => by cases hopen
      rw [hr']
      refine ⟨⟨h.enabled, h.threshold, h.recovery, fun hclosed => ?_, fun _ => ?_⟩, fun _ hopen => ?_⟩
      · cases hclosed
      · refine ⟨hfull, openedAt, rfl, hpast.trans hforward, fun _ => ?_, hspent⟩
        rw [h.recovery] at hover
        have hnow : (a.monotonic env).1 ≤ (a.monotonic env).2.monotonicNow env := hforward
        linarith
      · cases hopen
    · rw [if_neg hover] at hr
      have hr' : r = (.error .circuitOpen, (a.monotonic env).2, breaker) := by
        rw [hr]
        exact if_pos hstate
      rw [hr']
      exact ⟨h.mono hforward, fun hok => by cases hok⟩
  · have hr' : r = (.ok (), a, breaker) := by
      rw [hr]
      cases hs : breaker.state with
      | opened => exact absurd hs hstate
      | closed => simp only [hs]; rfl
      | halfOpen => simp only [hs]; rfl
    rw [hr']
    exact ⟨h, fun _ => hstate⟩

/-- A failure: it counts where it is of a call that was let through. -/
theorem recordFailure (h : Charge failureThreshold recoverySeconds since (a.monotonicNow env) n breaker)
    (nonneg : 0 ≤ recoverySeconds) (started : since ≤ a.monotonicNow env) {n' : Nat}
    (counted : n' = 0 ∨ n' = n + 1 ∧ breaker.state ≠ .opened) :
    let r := breaker.recordFailure env a
    Charge failureThreshold recoverySeconds since (r.1.monotonicNow env) n' r.2 := by
  intro r
  have hr : r = breaker.recordFailure env a := rfl
  unfold DarajaCircuitBreaker.recordFailure at hr
  rw [if_pos h.enabled] at hr
  dsimp only at hr
  rw [h.threshold] at hr
  have hforward := (a.forward_monotonic env).monotonicNow_le env
  by_cases hfull : max 1 failureThreshold ≤ ((breaker.failureCount + 1 : Nat) : Int)
  · rw [if_pos hfull] at hr
    rw [hr]
    refine ⟨h.enabled, rfl, h.recovery, fun hclosed => ?_, fun _ => ?_⟩
    · cases hclosed
    refine ⟨hfull, a.monotonicNow env, rfl, hforward, fun hhalf => ?_, ?_⟩
    · cases hhalf
    rcases counted with hzero | ⟨rfl, hadmitted⟩
    · exact Or.inl hzero
    · exact Or.inr (h.admitted_le nonneg started hadmitted)
  · rw [if_neg hfull] at hr
    rw [hr]
    have hclosed : breaker.state = .closed := by
      by_contra htripped
      have hcount := (h.tripped htripped).1
      exact hfull (by omega)
    refine ⟨h.enabled, rfl, h.recovery, fun _ => ⟨?_, not_le.mp hfull⟩, fun htripped => ?_⟩
    · have hcount := (h.closed hclosed).1
      show n' ≤ breaker.failureCount + 1
      omega
    · exact absurd hclosed htripped

/-- A success starts over. -/
theorem recordSuccess (h : Charge failureThreshold recoverySeconds since now n breaker) :
    Charge failureThreshold recoverySeconds since now 0 breaker.recordSuccess := by
  have hr : breaker.recordSuccess =
      { breaker with state := .closed, failureCount := 0, openedAt := none } := if_pos h.enabled
  rw [hr]
  exact ⟨h.enabled, h.threshold, h.recovery, fun _ => ⟨Nat.le_refl _, by simp⟩,
    fun htripped => absurd rfl htripped⟩

end Charge

/-! ## The requests of one call -/

section Calls

variable {env : Env} {daraja : DarajaSettings} {server : DarajaServer} {base : Nat}

/-- A state after so many more requests. -/
def DarajaState.asked (s : DarajaState) (k : Nat) : DarajaState := { s with requests := s.requests + k }

/-- A request to a peer that is down. -/
theorem request_down (down : server.DownFrom base) (request : HttpRequest) {a : Ambient}
    {s : DarajaState} (later : base ≤ s.requests) :
    ∃ e, darajaAnswer env server (.request request) (a, s) = (.error e, a, s.asked 1) ∧ e.Transport := by
  have hdown := down s.requests later request
  simp only [darajaAnswer]
  cases hanswer : server.answer s.requests request with
  | response response =>
    rw [hanswer] at hdown
    exact hdown.elim
  | timeout text => exact ⟨.timeout text, rfl, trivial⟩
  | connectError text => exact ⟨.connectError text, rfl, trivial⟩
  | otherError text => exact ⟨.otherHttp text, rfl, trivial⟩

/-- The retry loop gives up on a peer that is down after its last attempt. -/
theorem requestAttempts_down (down : server.DownFrom base) (request : HttpRequest)
    (retryHttpStatuses : List Nat) (left : Nat) {a : Ambient} {s : DarajaState}
    (later : base ≤ s.requests) :
    ∃ e k, Prog.run (darajaAnswer env server) (requestAttempts daraja request retryHttpStatuses left)
        (a, s) = (.error e, a, s.asked k) ∧ e.Transport ∧ k ≤ left + 1 := by
  induction left generalizing s with
  | zero =>
    obtain ⟨e, hrun, htransport⟩ := @request_down env server base down request a s later
    refine ⟨e, 1, ?_, htransport, Nat.le_refl _⟩
    rw [requestAttempts, run_call]
    exact hrun
  | succ left ih =>
    obtain ⟨e, hrun, htransport⟩ := @request_down env server base down request a s later
    obtain ⟨e', k, hrun', htransport', hk⟩ := @ih (s.asked 1) (Nat.le_succ_of_le later)
    have hasked : (s.asked 1).asked k = s.asked (k + 1) := by
      simp only [DarajaState.asked, Nat.add_assoc, Nat.add_comm 1 k]
    rw [hasked] at hrun'
    simp only [requestAttempts, Prog.run_bind, Prog.run_attempt, run_call, hrun]
    cases e with
    | timeout text =>
      refine ⟨e', k + 1, ?_, htransport', by omega⟩
      simp only [Prog.run_bind, run_sleepBetweenRetries, hrun']
    | connectError text =>
      refine ⟨e', k + 1, ?_, htransport', by omega⟩
      simp only [Prog.run_bind, run_sleepBetweenRetries, hrun']
    | otherHttp text => exact ⟨.otherHttp text, 1, rfl, trivial, by omega⟩
    | _ => exact htransport.elim

/-- The token request fails on the way, or for want of a credential before it is made. -/
theorem getOauthToken_down (down : server.DownFrom base) {a : Ambient} {s : DarajaState}
    (later : base ≤ s.requests) :
    ∃ e k, Prog.run (darajaAnswer env server) (getOauthToken daraja) (a, s) = (.error e, a, s.asked k) ∧
      k ≤ (attempts daraja).toNat ∧ (e.Transport ∨ k = 0 ∧ ∃ message, e = .valueError message) := by
  have hbudget : (attempts daraja).toNat = (max 0 daraja.darajaMaxRetries).toNat + 1 := by
    rw [attempts_eq, Int.toNat_natCast]
  have hcredential : ∀ name, (∃ value, requiredCredential daraja name = pure value) ∨
      ∃ message, requiredCredential daraja name = .raise (.valueError message) := by
    intro name
    unfold requiredCredential
    split
    · exact Or.inl ⟨_, rfl⟩
    · exact Or.inr ⟨_, rfl⟩
  unfold getOauthToken
  rcases hcredential .consumerKey with ⟨key, hkey⟩ | ⟨message, hkey⟩
  · rcases hcredential .consumerSecret with ⟨secret, hsecret⟩ | ⟨message, hsecret⟩
    · obtain ⟨e, k, hrun, htransport, hk⟩ := @requestAttempts_down env daraja server base down
        (.oauthToken key secret) [502, 503, 504] (max 0 daraja.darajaMaxRetries).toNat a s later
      refine ⟨e, k, ?_, by omega, Or.inl htransport⟩
      simp only [hkey, hsecret, Prog.run_bind, Prog.run_pure, requestWithRetries, hrun]
    · refine ⟨.valueError message, 0, ?_, Nat.zero_le _, Or.inr ⟨rfl, message, rfl⟩⟩
      simp only [hkey, hsecret, Prog.run_bind, Prog.run_pure, Prog.run_raise]
      rfl
  · refine ⟨.valueError message, 0, ?_, Nat.zero_le _, Or.inr ⟨rfl, message, rfl⟩⟩
    simp only [hkey, Prog.run_bind, Prog.run_raise]
    rfl

/-- What `n` failed calls since a time have cost. -/
structure OutageCost (env : Env) (daraja : DarajaSettings) (failureThreshold : Int)
    (recoverySeconds since : ℚ) (base n : Nat) (s : Ambient × DarajaState) : Prop where
  charge : Charge failureThreshold recoverySeconds since (s.1.monotonicNow env) n s.2.breaker
  started : since ≤ s.1.monotonicNow env
  later : base ≤ s.2.requests
  requests : s.2.requests ≤ base + (attempts daraja).toNat * n

variable {failureThreshold : Int} {recoverySeconds since : ℚ} {n : Nat} {a : Ambient} {s : DarajaState}

/-- Time passes. -/
theorem OutageCost.forward {a' : Ambient}
    (h : OutageCost env daraja failureThreshold recoverySeconds since base n (a, s))
    (forward : a.Forward a') :
    OutageCost env daraja failureThreshold recoverySeconds since base n (a', s) :=
  ⟨h.charge.mono (forward.monotonicNow_le env), h.started.trans (forward.monotonicNow_le env), h.later,
    h.requests⟩

/-- The breaker is asked. -/
theorem OutageCost.beforeCall (server : DarajaServer)
    (h : OutageCost env daraja failureThreshold recoverySeconds since base n (a, s)) :
    let r := darajaAnswer env server .beforeCall (a, s)
    OutageCost env daraja failureThreshold recoverySeconds since base n r.2 ∧
      (r.1 = .ok () → r.2.2.breaker.state ≠ .opened) := by
  intro r
  obtain ⟨hcharge, hadmitted⟩ := h.charge.beforeCall
  have hforward := (forward_darajaAnswer env server .beforeCall a s).monotonicNow_le env
  exact ⟨⟨hcharge, h.started.trans hforward, h.later, h.requests⟩, hadmitted⟩

/-- A call that was let through fails, after no more requests than the loop has attempts. -/
theorem OutageCost.recordFailure (server : DarajaServer)
    (h : OutageCost env daraja failureThreshold recoverySeconds since base n (a, s))
    (nonneg : 0 ≤ recoverySeconds) (admitted : s.breaker.state ≠ .opened) {k : Nat}
    (within : k ≤ (attempts daraja).toNat) :
    OutageCost env daraja failureThreshold recoverySeconds since base (n + 1)
      (darajaAnswer env server .recordFailure (a, s.asked k)).2 := by
  have hforward := (forward_darajaAnswer env server .recordFailure a (s.asked k)).monotonicNow_le env
  have hrequests := h.requests
  refine ⟨h.charge.recordFailure nonneg h.started (Or.inr ⟨rfl, admitted⟩), h.started.trans hforward,
    Nat.le_add_right_of_le h.later, ?_⟩
  show s.requests + k ≤ base + (attempts daraja).toNat * (n + 1)
  rw [Nat.mul_succ]
  dsimp only at hrequests
  omega

/-- The token of a push that was let through. -/
theorem stkPushToken_down (down : server.DownFrom base) (nonneg : 0 ≤ recoverySeconds)
    (h : OutageCost env daraja failureThreshold recoverySeconds since base n (a, s))
    (admitted : s.breaker.state ≠ .opened) :
    ∃ e s' n', Prog.run (darajaAnswer env server) (stkPushToken daraja) (a, s) = (.error e, s') ∧
      OutageCost env daraja failureThreshold recoverySeconds since base n' s' := by
  obtain ⟨e, k, hrun, hk, hcause⟩ := @getOauthToken_down env daraja server base down a s h.later
  have hfailed : ∀ e' : ClientExn, Prog.run (darajaAnswer env server)
      (failed (α := String) (pure e')) (a, s.asked k) =
        (.error e', (darajaAnswer env server .recordFailure (a, s.asked k)).2) := fun e' => rfl
  have hspent := h.recordFailure server nonneg admitted hk
  simp only [stkPushToken, Prog.run_bind, Prog.run_attempt, hrun]
  cases e with
  | timeout text => exact ⟨_, _, _, hfailed _, hspent⟩
  | connectError text => exact ⟨_, _, _, hfailed _, hspent⟩
  | otherHttp text => exact ⟨_, _, _, hfailed _, hspent⟩
  | valueError message =>
    rcases hcause with htransport | ⟨rfl, -⟩
    · exact htransport.elim
    · exact ⟨_, _, n, rfl, h⟩
  | _ =>
    rcases hcause with htransport | ⟨-, message, hmessage⟩
    · exact htransport.elim
    · cases hmessage

/-- A push. -/
theorem initiateStkPush_down (down : server.DownFrom base) (nonneg : 0 ≤ recoverySeconds)
    (h : OutageCost env daraja failureThreshold recoverySeconds since base n (a, s)) (py : Runtime)
    (payment : InitiatePayment) :
    ∃ n', OutageCost env daraja failureThreshold recoverySeconds since base n'
      (Prog.run (darajaAnswer env server) (initiateStkPush daraja py payment) (a, s)).2 := by
  obtain ⟨hspent, hadmitted⟩ := h.beforeCall server
  simp only [initiateStkPush, submitStkPush, Prog.run_bind, run_call]
  cases hbefore : darajaAnswer env server .beforeCall (a, s) with
  | mk answer s₁ =>
  rw [hbefore] at hspent hadmitted
  cases answer with
  | error e => exact ⟨n, hspent⟩
  | ok admitted =>
    obtain ⟨e, s', n', hrun, hspent'⟩ := stkPushToken_down down nonneg hspent (hadmitted rfl)
    refine ⟨n', ?_⟩
    simp only [hrun]
    exact hspent'

/-- A status query. -/
theorem checkTransactionStatus_down (down : server.DownFrom base) (nonneg : 0 ≤ recoverySeconds)
    (h : OutageCost env daraja failureThreshold recoverySeconds since base n (a, s)) (py : Runtime)
    (reference : String) :
    ∃ n', OutageCost env daraja failureThreshold recoverySeconds since base n'
      (Prog.run (darajaAnswer env server) (checkTransactionStatus daraja py reference) (a, s)).2 := by
  obtain ⟨hspent, hadmitted⟩ := h.beforeCall server
  rcases transactionStatusPayload_cases daraja with ⟨-, hpayload⟩ | ⟨-, e, hpayload⟩
  case inr =>
    refine ⟨n, ?_⟩
    simp only [checkTransactionStatus, hpayload, Prog.run_bind, Prog.run_raise]
    exact h
  simp only [checkTransactionStatus, queryTransactionStatus, hpayload, Prog.run_bind, Prog.run_pure,
    Prog.run_attempt, run_call]
  cases hbefore : darajaAnswer env server .beforeCall (a, s) with
  | mk answer s₁ =>
  rw [hbefore] at hspent hadmitted
  cases answer with
  | error e =>
    have hopen : e = .circuitOpen := by
      have hanswer : (s.breaker.beforeCall env a).1 = .error e := congrArg Prod.fst hbefore
      rcases beforeCall_cases env a s.breaker with hok | hopen
      · cases hok.symm.trans hanswer
      · exact Except.error.inj (hanswer.symm.trans hopen)
    subst hopen
    exact ⟨n, hspent⟩
  | ok admitted =>
    obtain ⟨a₁, s₁⟩ := s₁
    obtain ⟨e, k, hrun, hk, hcause⟩ := @getOauthToken_down env daraja server base down a₁ s₁
      hspent.later
    have hfailed := hspent.recordFailure server nonneg (hadmitted rfl) hk
    refine ⟨n + 1, ?_⟩
    simp only [hrun]
    cases e with
    | timeout text => exact hfailed
    | connectError text => exact hfailed
    | otherHttp text => exact hfailed
    | valueError message => exact hfailed
    | _ =>
      rcases hcause with htransport | ⟨-, message, hmessage⟩
      · exact htransport.elim
      · cases hmessage

/-- What the breaker of a client keeps, whatever its peer answers. -/
theorem darajaAnswer_charge (nonneg : 0 ≤ recoverySeconds) (c : DarajaCall) (s : Ambient × DarajaState)
    (h : ∀ since, Charge failureThreshold recoverySeconds since (s.1.monotonicNow env) 0 s.2.breaker) :
    let s' := (darajaAnswer env server c s).2
    ∀ since, Charge failureThreshold recoverySeconds since (s'.1.monotonicNow env) 0 s'.2.breaker := by
  intro s' since
  cases c with
  | beforeCall => exact (h since).beforeCall.1
  | recordSuccess => exact (h since).recordSuccess
  | recordFailure =>
    have hstart := h (s.1.monotonicNow env)
    exact (hstart.recordFailure nonneg (le_refl _) (Or.inl rfl)).restart since
  | _ => exact h since

end Calls

/-! ## The server -/

section Application

variable {τ : Type} {env : Env} {container : AppContainer τ DarajaState} {daraja : DarajaSettings}
  {peer : DarajaServer}

/-- The client of an application, and the surroundings it has used. -/
def World.client (w : World τ DarajaState) : Ambient × DarajaState := (w.ambient, w.provider)

/-- What every call of the client keeps, and the passing of time, every message keeps, since the
provider is reached through the client alone. -/
theorem handle_client {I : Ambient × DarajaState → Prop}
    (pays : container.paymentProvider = DarajaPaymentProvider daraja peer)
    (waits : ∀ a a' s, Ambient.Forward a a' → I (a, s) → I (a', s))
    (calls : ∀ m s, I s → I (DarajaPaymentProvider.answer daraja peer env m s).2) (m : Msg)
    {w : World τ DarajaState} (h : I w.client) : I (handle env container m w).2.client := by
  have hforward := handle_forward env container m w
  cases m with
  | provider m =>
    have hcall := calls m w.client h
    have hanswer : (handle env container (.provider m) w).2.client =
        (DarajaPaymentProvider.answer daraja peer env m w.client).2 := by
      cases m <;> simp only [handle, handleProvider, pays] <;> rfl
    rw [hanswer]
    exact hcall
  | _ => exact waits _ _ _ hforward h

/-- One input of the server reaches the client by its messages alone, so it keeps what every message to
the client keeps. -/
theorem serverStep_client {ρ : Type} {surroundings : Surroundings} {server : Server τ DarajaState ρ}
    {I : Ambient × DarajaState → Prop}
    (pays : server.paymentProvider = DarajaPaymentProvider daraja peer)
    (waits : ∀ a a' s, Ambient.Forward a a' → I (a, s) → I (a', s))
    (calls : ∀ m s, I s → I (DarajaPaymentProvider.answer daraja peer surroundings.env m s).2)
    (input : ServerInput) {w : ServerWorld τ DarajaState ρ} (h : I w.app.client) :
    I (serverStep surroundings server input w).2.app.client := by
  refine (serverStep_drives surroundings server input w).kept
    (I := fun v : World τ DarajaState => I v.client) ?_ ?_ ?_ h
  · intro v a forward hv
    exact waits _ _ _ forward hv
  · intro m v _ hv
    exact handle_client pays waits calls m hv
  · intro op _ v hv
    exact Prog.run_kept (I := fun v : World τ DarajaState => I v.client)
      (fun m _ v hv => handle_client pays waits calls m hv) (Prog.sends_true _) hv

end Application

/-! ## The theorem -/

section Theorem

variable {τ ρ : Type} (surroundings : Surroundings) (server : Server τ DarajaState ρ)
  {daraja : DarajaSettings} {peer : DarajaServer} {failureThreshold : Int} {recoverySeconds : ℚ}

/-- The client with a new breaker. -/
def DarajaState.new (failureThreshold : Int) (recoverySeconds : ℚ) : DarajaState where
  breaker := { failureThreshold := failureThreshold, recoverySeconds := recoverySeconds }

/-- The breaker in any state that the server comes to, charged with nothing yet: by induction on the
inputs, its state, its count and the time it opened fit together, so an outage may begin anywhere. -/
theorem charge_run (pays : server.paymentProvider = DarajaPaymentProvider daraja peer)
    (nonneg : 0 ≤ recoverySeconds) (transactions : τ) (limiter : ρ) (inputs : List ServerInput) :
    let w := final (serverStep surroundings server)
      (ServerWorld.start transactions (.new failureThreshold recoverySeconds) limiter) inputs
    ∀ since, Charge failureThreshold recoverySeconds since
      (w.app.ambient.monotonicNow surroundings.env) 0 w.app.provider.breaker := by
  refine state_invariant (I := fun w : ServerWorld τ DarajaState ρ => ∀ since,
    Charge failureThreshold recoverySeconds since (w.app.ambient.monotonicNow surroundings.env) 0
      w.app.provider.breaker) (fun since => .new since _) ?_ inputs
  intro w input h
  refine serverStep_client (I := fun s => ∀ since, Charge failureThreshold recoverySeconds since
    (s.1.monotonicNow surroundings.env) 0 s.2.breaker) pays ?_ ?_ input h
  · intro a a' s forward hs since
    exact (hs since).mono (forward.monotonicNow_le surroundings.env)
  · intro m s hs
    have hrun : ∀ {α : Type} (p : Client α), ∀ since, Charge failureThreshold recoverySeconds since
        ((runClient surroundings.env peer p s).2.1.monotonicNow surroundings.env) 0
          (runClient surroundings.env peer p s).2.2.breaker :=
      fun p => Prog.run_kept (fun c _ t ht => darajaAnswer_charge nonneg c t ht) (Prog.sends_true p) hs
    cases m with
    | initiatePayment args => exact hrun _
    | checkTransactionStatus reference => exact hrun _

/-- The requests of a run while the peer is down, by induction on its inputs: a call that the breaker
lets through fails and is charged once for all its attempts, and a call that it stops costs nothing. -/
theorem outageCost_run (pays : server.paymentProvider = DarajaPaymentProvider daraja peer)
    (nonneg : 0 ≤ recoverySeconds) {since : ℚ} {base : Nat} (down : peer.DownFrom base)
    (inputs : List ServerInput) {w : ServerWorld τ DarajaState ρ}
    (h : ∃ n, OutageCost surroundings.env daraja failureThreshold recoverySeconds since base n
      w.app.client) :
    ∃ n, OutageCost surroundings.env daraja failureThreshold recoverySeconds since base n
      (final (serverStep surroundings server) w inputs).app.client := by
  refine state_invariant (I := fun v : ServerWorld τ DarajaState ρ => ∃ n, OutageCost
    surroundings.env daraja failureThreshold recoverySeconds since base n v.app.client) h ?_ inputs
  intro v input hv
  refine serverStep_client (I := fun s => ∃ n, OutageCost surroundings.env daraja failureThreshold
    recoverySeconds since base n s) pays ?_ ?_ input hv
  · rintro a a' s forward ⟨n, hs⟩
    exact ⟨n, hs.forward forward⟩
  · rintro m ⟨a, s⟩ ⟨n, hs⟩
    cases m with
    | initiatePayment args => exact initiateStkPush_down down nonneg hs _ args
    | checkTransactionStatus reference => exact checkTransactionStatus_down down nonneg hs _ reference

/-- **An outage of the peer costs it a bounded number of requests**: while Daraja cannot be reached,
whatever reaches the server, payments, approvals, status queries and reconciliations together make at
most as many requests as the retry loop has attempts for each of as many calls as the threshold, and for
one more in each recovery time that passes. -/
theorem outage_load_bounded (daraja : DarajaSettings) (peer : DarajaServer) (failureThreshold : Int)
    (recoverySeconds : ℚ) (pays : server.paymentProvider = DarajaPaymentProvider daraja peer)
    (nonneg : 0 ≤ recoverySeconds) (transactions : τ) (limiter : ρ) (before later : List ServerInput) :
    let w := final (serverStep surroundings server)
      (ServerWorld.start transactions (.new failureThreshold recoverySeconds) limiter) before
    let w' := final (serverStep surroundings server) w later
    peer.DownFrom w.app.provider.requests →
      ((w'.app.provider.requests : ℚ) - w.app.provider.requests) * recoverySeconds ≤
        (attempts daraja : ℚ) * ((max 1 failureThreshold : Int) * recoverySeconds +
          (w'.app.ambient.monotonicNow surroundings.env -
            w.app.ambient.monotonicNow surroundings.env)) := by
  intro w w' down
  have hcharge : ∀ since, Charge failureThreshold recoverySeconds since
      (w.app.ambient.monotonicNow surroundings.env) 0 w.app.provider.breaker :=
    charge_run surroundings server pays nonneg transactions limiter before
  have hstart : OutageCost surroundings.env daraja failureThreshold recoverySeconds
      (w.app.ambient.monotonicNow surroundings.env) w.app.provider.requests 0 w.app.client :=
    ⟨hcharge _, le_refl _, le_refl _, Nat.le_add_right _ _⟩
  obtain ⟨n, hspent⟩ := outageCost_run surroundings server pays nonneg down later ⟨0, hstart⟩
  have hfailures := hspent.charge.failures_le nonneg hspent.started
  have hattempts : ((attempts daraja).toNat : ℚ) = (attempts daraja : ℚ) := by
    rw [attempts_eq, Int.toNat_natCast, Int.cast_natCast]
  have hrequests : (w'.app.provider.requests : ℚ) ≤
      w.app.provider.requests + (attempts daraja : ℚ) * n := by
    rw [← hattempts]
    exact_mod_cast hspent.requests
  calc ((w'.app.provider.requests : ℚ) - w.app.provider.requests) * recoverySeconds
      ≤ ((attempts daraja : ℚ) * n) * recoverySeconds := by
        apply mul_le_mul_of_nonneg_right _ nonneg
        linarith
    _ = (attempts daraja : ℚ) * (n * recoverySeconds) := mul_assoc _ _ _
    _ ≤ _ := by
        apply mul_le_mul_of_nonneg_left hfailures
        rw [← hattempts]
        exact Nat.cast_nonneg _

end Theorem

/-! ## A peer that refuses every connection -/

def refusingPeer : DarajaServer where
  answer _ _ := .connectError "connection refused"
  pushes _ := false

/-- A server that pays through it. -/
def refusedServer : Server Transactions DarajaState RateWindows where
  toMcpDependencies :=
    .memory (.daraja {} .development InMemoryTransactionRepository configuredSettings refusingPeer) {}

/-- Pushes to four phones. -/
def fourPushes : List ServerInput :=
  ["254700000001", "254700000002", "254700000003", "254700000004"].map fun phone =>
    .tool (.initiateStkPush (.str phone) (.int 10) (.str "ref") (.str "d") .none)

/-- With a threshold of two and two retries, four pushes cost the peer six requests at most. -/
theorem outage_load_bounded_refused :
    (final (serverStep stillSurroundings refusedServer)
      (ServerWorld.start Keyed.empty (.new 2 60) Keyed.empty) fourPushes).app.provider.requests ≤ 6 := by
  have hbound := outage_load_bounded stillSurroundings refusedServer configuredSettings refusingPeer 2 60
    rfl (by norm_num) Keyed.empty Keyed.empty [] fourPushes (fun _ _ _ => trivial)
  have hattempts : attempts configuredSettings = 3 := rfl
  have hclock : ∀ n, stillSurroundings.env.monotonic n = 0 := fun _ => rfl
  have hthreshold : max (1 : Int) 2 = 2 := rfl
  have hfresh : (ServerWorld.start (Keyed.empty : Transactions) (DarajaState.new 2 60)
    (Keyed.empty : RateWindows)).app.provider.requests = 0 := rfl
  simp only [Ambient.monotonicNow, hclock, hattempts, hthreshold, sub_self, add_zero, final] at hbound
  rw [hfresh, Nat.cast_zero, sub_zero] at hbound
  have hsix : ((final (serverStep stillSurroundings refusedServer)
      (ServerWorld.start Keyed.empty (.new 2 60) Keyed.empty) fourPushes).app.provider.requests : ℚ) ≤
        (6 : Nat) := by
    push_cast at hbound ⊢
    linarith
  exact_mod_cast hsix

end MpesaMcp
