import MpesaMcp.Laws.ToolCalls
import MpesaMcp.Laws.Limiters

/-!
# The rate limit of STK pushes

A payment tool is limited under its own name and the number as it was written, so one number has many
keys, and as many windows.

For one number, the calls that reach the payment service stay within the limit in every window that
the first of its calls opens, in every run in which no call finds an open window under another key of
its number (`pushes_limited_of_apart`).
-/

set_option autoImplicit false

namespace MpesaMcp

open Library Python

/-! ## The property -/

section Property

variable {τ π ρ : Type} (env : Env) (pydantic : Pydantic) (container : McpDependencies τ π ρ)

/-- The limiter key and the payment of a call whose policy and input let it pass. -/
def admittedPush (toolName keyPrefix : String) (data : PyDict) : Option (String × InitiateStkPush) :=
  if (container.toolPolicy.evaluate toolName).allowed then
    match InitiateStkPushInput.modelValidate pydantic data with
    | .ok toolInput => some (keyPrefix ++ toolInput.phoneNumber, toolInput.arguments)
    | .error _ => none
  else none

/-- The limiter key and the payment of a call of one of the two payment tools. -/
def pushRequest : ToolCall → Option (String × InitiateStkPush)
  | .initiateStkPush phoneNumber amount accountReference description idempotencyKey =>
    admittedPush pydantic container "initiate_stk_push" "initiate_stk_push:"
      (paymentInput phoneNumber amount accountReference description idempotencyKey)
  | .initiatePayment phoneNumber amount accountReference description idempotencyKey =>
    admittedPush pydantic container "initiate_payment" "initiate_payment:"
      (paymentInput phoneNumber amount accountReference description idempotencyKey)
  | _ => none

/-- The digits of the number a payment is for. -/
def InitiateStkPush.digits (args : InitiateStkPush) : Option String :=
  args.phoneNumber.map StkCallbackHandler.normalizePhoneNumber

/-- When a call reads the clock. -/
def pushTime (st : McpStep τ π ρ) : ℚ := env.monotonic st.before.app.ambient.monotonicReads

/-- How many payments for the number reach `PaymentService.initiate_stk_push` in a step. -/
def pushesReached (digits : String) (st : McpStep τ π ρ) : Nat :=
  (st.after.pushCalls.drop st.before.pushCalls.length).countP fun args =>
    decide (args.digits = some digits)

/-- The arrival of a step for a number: a payment call for it, and whether it got through. -/
def pushArrival (digits : String) (st : McpStep τ π ρ) : Option (ℚ × Nat) :=
  match pushRequest pydantic container st.input with
  | some (_, args) =>
    if args.digits = some digits then some (pushTime env st, pushesReached digits st) else none
  | none => none

/-- The payment calls of a run for a number. -/
def pushArrivals (digits : String) (run : List (McpStep τ π ρ)) : List (ℚ × Nat) :=
  run.filterMap (pushArrival env pydantic container digits)

/-- A limiter key of one of the two payment tools, for some spelling of the number. -/
def IsPushKey (digits key : String) : Prop :=
  ∃ phoneNumber, StkCallbackHandler.normalizePhoneNumber phoneNumber = digits ∧
    (key = "initiate_stk_push:" ++ phoneNumber ∨ key = "initiate_payment:" ++ phoneNumber)

/-- A payment call finds no open window under another key of its number. -/
def PushesApart (windowSeconds : Int) (st : McpStep τ π RateWindows) : Prop :=
  ∀ key args digits, pushRequest pydantic container st.input = some (key, args) →
    args.digits = some digits → ∀ window ∈ st.before.limiter.values,
      IsPushKey digits window.key → window.key ≠ key → window.start + windowSeconds ≤ pushTime env st

end Property

/-! ## One call -/

/-- A message that is no payment and no limit of one. -/
def McpMsg.SparesPushes : McpMsg → Prop
  | .allow key _ _ => ∀ digits, ¬ IsPushKey digits key
  | .initiateStkPush _ => False
  | _ => True

theorem head_of_isPushKey {digits key : String} (h : IsPushKey digits key) :
    key.toList.head? = some 'i' := by
  obtain ⟨phoneNumber, -, rfl | rfl⟩ := h <;> simp

theorem not_isPushKey {key : String} (h : key.toList.head? ≠ some 'i') (digits : String) :
    ¬ IsPushKey digits key := fun hkey => h (head_of_isPushKey hkey)

section Call

variable {τ π ρ : Type} {env : Env} {pydantic : Pydantic} {container : McpDependencies τ π ρ}
  {toolName keyPrefix : String} {data : PyDict}

theorem admittedPush_eq_none (h : admittedPush pydantic container toolName keyPrefix data = none) :
    (container.toolPolicy.evaluate toolName).allowed = false ∨
      ∃ errors, InitiateStkPushInput.modelValidate pydantic data = .error errors := by
  cases hpolicy : (container.toolPolicy.evaluate toolName).allowed with
  | false => exact Or.inl rfl
  | true =>
    cases hvalid : InitiateStkPushInput.modelValidate pydantic data with
    | error errors => exact Or.inr ⟨errors, rfl⟩
    | ok toolInput => simp [admittedPush, hpolicy, hvalid] at h

theorem admittedPush_eq_some {key : String} {args : InitiateStkPush}
    (h : admittedPush pydantic container toolName keyPrefix data = some (key, args)) :
    (container.toolPolicy.evaluate toolName).allowed = true ∧
      ∃ toolInput, InitiateStkPushInput.modelValidate pydantic data = .ok toolInput ∧
        key = keyPrefix ++ toolInput.phoneNumber ∧ args = toolInput.arguments := by
  cases hpolicy : (container.toolPolicy.evaluate toolName).allowed with
  | false => simp [admittedPush, hpolicy] at h
  | true =>
    cases hvalid : InitiateStkPushInput.modelValidate pydantic data with
    | error errors => simp [admittedPush, hpolicy, hvalid] at h
    | ok toolInput =>
      simp only [admittedPush, hpolicy, hvalid, if_true, Option.some.injEq, Prod.mk.injEq] at h
      exact ⟨rfl, toolInput, rfl, h.1.symm, h.2.symm⟩

/-- A payment is limited under a key of its number. -/
theorem isPushKey_of_pushRequest {call : ToolCall} {key digits : String} {args : InitiateStkPush}
    (h : pushRequest pydantic container call = some (key, args)) (hdigits : args.digits = some digits) :
    IsPushKey digits key := by
  cases call with
  | initiateStkPush =>
    obtain ⟨-, toolInput, -, rfl, rfl⟩ := admittedPush_eq_some h
    exact ⟨toolInput.phoneNumber, Option.some.inj hdigits, Or.inl rfl⟩
  | initiatePayment =>
    obtain ⟨-, toolInput, -, rfl, rfl⟩ := admittedPush_eq_some h
    exact ⟨toolInput.phoneNumber, Option.some.inj hdigits, Or.inr rfl⟩
  | _ => cases h

/-- The calls that pay. -/
def ToolCall.Pays : ToolCall → Prop
  | .initiateStkPush .. => True
  | .initiatePayment .. => True
  | _ => False

/-- The other calls touch no limit of a payment. -/
theorem ToolCall.MaySend.sparesPushes {call : ToolCall} (other : ¬ call.Pays) {m : McpMsg}
    (h : call.MaySend m) : m.SparesPushes := by
  cases m with
  | allow key limit windowSeconds =>
    have hkey : ∃ keyPrefix ∈ call.keyPrefix, keyPrefix.toList <+: key.toList := by
      cases call <;> exact h
    obtain ⟨keyPrefix, hprefix, rest, hrest⟩ := hkey
    refine not_isPushKey ?_
    rw [← hrest]
    cases call with
    | initiateStkPush => exact absurd trivial other
    | initiatePayment => exact absurd trivial other
    | _ => cases hprefix <;> simp
  | initiateStkPush args =>
    cases call with
    | initiateStkPush => exact absurd trivial other
    | initiatePayment => exact absurd trivial other
    | _ => exact absurd h id
  | _ => trivial

/-- A call that is no payment, or whose payment is refused, touches no limit of a payment. -/
theorem sends_of_not_pushRequest {call : ToolCall}
    (h : pushRequest pydantic container call = none) :
    (createToolHandlers pydantic container call).Sends McpMsg.SparesPushes := by
  by_cases hpays : call.Pays
  · cases call with
    | initiateStkPush =>
      unfold createToolHandlers initiateStkPushTool
      exact sends_refusedTool (admittedPush_eq_none h)
    | initiatePayment =>
      unfold createToolHandlers initiatePaymentTool
      exact sends_refusedTool (admittedPush_eq_none h)
    | _ => exact absurd hpays id
  · exact (sends_createToolHandlers pydantic container call).mono fun _ hm => hm.sparesPushes hpays

/-- A call that is no payment, or whose payment is refused, leaves the payments and the windows of
their keys as they were. -/
theorem mcpStep_aside {env : Env} {container : McpDependencies τ π RateWindows} {call : ToolCall}
    (limiter : container.rateLimiter = InMemoryRateLimiter)
    (h : pushRequest pydantic container call = none) (w : McpWorld τ π RateWindows) :
    let w' := (mcpStep env pydantic container call w).2
    w'.pushCalls = w.pushCalls ∧ ∀ digits key, IsPushKey digits key →
      InMemoryRateLimiter.windowOf w'.limiter key = InMemoryRateLimiter.windowOf w.limiter key := by
  refine Prog.run_related (R := fun s s' => s'.pushCalls = s.pushCalls ∧ ∀ digits key,
    IsPushKey digits key → InMemoryRateLimiter.windowOf s'.limiter key =
      InMemoryRateLimiter.windowOf s.limiter key) (fun _ => ⟨rfl, fun _ _ _ => rfl⟩) ?_ ?_
    (sends_of_not_pushRequest h) w
  · rintro s t u ⟨hcalls, hkeys⟩ ⟨hcalls', hkeys'⟩
    exact ⟨hcalls'.trans hcalls, fun digits key hkey =>
      (hkeys' digits key hkey).trans (hkeys digits key hkey)⟩
  · intro m hm s
    cases m with
    | allow key limit windowSeconds =>
      refine ⟨rfl, fun digits key' hkey => ?_⟩
      have hne : key' ≠ key := fun he => hm digits (he ▸ hkey)
      simp only [handleMcp, limiter, InMemoryRateLimiter]
      exact InMemoryRateLimiter.windowOf_allowAt _ _ _ hne
    | initiateStkPush args => exact absurd hm id
    | _ => exact ⟨rfl, fun _ _ _ => rfl⟩

/-- What a payment tool does with an admitted payment: the limiter decides by the window of its key,
and an allowed payment reaches the service. -/
theorem run_paymentTool (env : Env) {container : McpDependencies τ π RateWindows} {key : String}
    {args : InitiateStkPush} (limiter : container.rateLimiter = InMemoryRateLimiter)
    (enabled : container.mcpSettings.rateLimitEnabled = true)
    (h : admittedPush pydantic container toolName keyPrefix data = some (key, args))
    (w : McpWorld τ π RateWindows) :
    let r := InMemoryRateLimiter.allowAt (env.monotonic w.app.ambient.monotonicReads) key
      container.mcpSettings.rateLimitMaxStkPush container.mcpSettings.rateLimitWindowSeconds w.limiter
    let w' := (Prog.run (handleMcp env container) (guardedTool toolName container.toolPolicy
      (InitiateStkPushInput.modelValidate pydantic data)
      (some (container.limits container.mcpSettings.rateLimitMaxStkPush,
        fun toolInput => keyPrefix ++ toolInput.phoneNumber)) delegatePayment) w).2
    w'.limiter = r.2 ∧ w'.pushCalls = if r.1.allowed then w.pushCalls ++ [args] else w.pushCalls := by
  obtain ⟨hpolicy, toolInput, hvalid, rfl, rfl⟩ := admittedPush_eq_some h
  intro r
  have hdecided : handleMcp env container (.allow (keyPrefix ++ toolInput.phoneNumber)
      container.mcpSettings.rateLimitMaxStkPush container.mcpSettings.rateLimitWindowSeconds) w =
      (.ok r.1, { w with
        app := { w.app with ambient := (w.app.ambient.monotonic env).2 }
        limiter := r.2 }) := by
    simp only [handleMcp, limiter, InMemoryRateLimiter]
    rfl
  rw [run_guardedTool (handleMcp env container) hpolicy hvalid enabled hdecided]
  cases r.1.allowed with
  | false => exact ⟨rfl, rfl⟩
  | true =>
    simp only [delegatePayment, delegate, if_true, Prog.run_map, Mcp.run_call, handleMcp, serve_limiter,
      serve_pushCalls, and_self]

/-- What one payment call does. -/
theorem mcpStep_push (env : Env) {container : McpDependencies τ π RateWindows} {call : ToolCall}
    {key : String} {args : InitiateStkPush} (limiter : container.rateLimiter = InMemoryRateLimiter)
    (enabled : container.mcpSettings.rateLimitEnabled = true)
    (h : pushRequest pydantic container call = some (key, args)) (w : McpWorld τ π RateWindows) :
    let r := InMemoryRateLimiter.allowAt (env.monotonic w.app.ambient.monotonicReads) key
      container.mcpSettings.rateLimitMaxStkPush container.mcpSettings.rateLimitWindowSeconds w.limiter
    let w' := (mcpStep env pydantic container call w).2
    w'.limiter = r.2 ∧ w'.pushCalls = if r.1.allowed then w.pushCalls ++ [args] else w.pushCalls := by
  cases call with
  | initiateStkPush => exact run_paymentTool env limiter enabled h w
  | initiatePayment => exact run_paymentTool env limiter enabled h w
  | _ => cases h

end Call

/-! ## One number -/

/-- A key belongs to the number whose digits it holds: the names of the tools have none. -/
theorem digits_of_isPushKey {digits key : String} (h : IsPushKey digits key) :
    StkCallbackHandler.normalizePhoneNumber key = digits := by
  obtain ⟨phoneNumber, rfl, hkey⟩ := h
  have hprefix : ∀ text : String, text.toList.filter isDigit = [] →
      StkCallbackHandler.normalizePhoneNumber (text ++ phoneNumber) =
        StkCallbackHandler.normalizePhoneNumber phoneNumber := by
    intro text htext
    simp only [StkCallbackHandler.normalizePhoneNumber, String.toList_append, List.filter_append,
      htext, List.nil_append]
  rcases hkey with rfl | rfl
  · exact hprefix _ (by decide)
  · exact hprefix _ (by decide)

section Number

open InMemoryRateLimiter (windowOf windowAt allowAt allowAt_cases windowOf_put)

variable {τ π : Type} {env : Env} {windowSeconds limit : Int} {digits key : String}

/-- The windows stored under other keys of the number ended by a time. -/
def OthersEnded (digits : String) (windowSeconds : Int) (windows : RateWindows) (key : String)
    (time : ℚ) : Prop :=
  ∀ key', IsPushKey digits key' → key' ≠ key → ∀ stored ∈ windowOf windows key',
    stored.start + windowSeconds ≤ time

/-- The invariant of one number. `o` is the window that the first of its calls opened: it holds no
more payments than the limit, and it is the window of one key, the others having ended before. -/
structure PushWindow (env : Env) (windowSeconds limit : Int) (digits : String)
    (o : Option (FixedWindow ℚ)) (w : McpWorld τ π RateWindows) : Prop where
  bounded : ∀ window ∈ o, window.count ≤ limit.toNat
  early : ∀ window ∈ o, window.start ≤ env.monotonic w.app.ambient.monotonicReads
  unopened : o = none → ∀ key, IsPushKey digits key → windowOf w.limiter key = none
  stored : 0 < limit → ∀ window ∈ o, ∃ key, IsPushKey digits key ∧
    windowOf w.limiter key = some window ∧
    OthersEnded digits windowSeconds w.limiter key window.start

namespace PushWindow

variable {o : Option (FixedWindow ℚ)} {w w' : McpWorld τ π RateWindows}

/-- Before the first call nothing is stored. -/
theorem fresh (h : w.limiter = Keyed.empty) : PushWindow env windowSeconds limit digits none w := by
  refine ⟨?_, ?_, ?_, ?_⟩
  · intro window hwindow
    cases hwindow
  · intro window hwindow
    cases hwindow
  · intro _ key _
    rw [h]
    rfl
  · intro _ window hwindow
    cases hwindow

/-- A step that leaves the windows of the number alone keeps the invariant. -/
theorem same (h : PushWindow env windowSeconds limit digits o w)
    (forward : w.app.ambient.Forward w'.app.ambient)
    (keys : ∀ key, IsPushKey digits key → windowOf w'.limiter key = windowOf w.limiter key) :
    PushWindow env windowSeconds limit digits o w' := by
  refine ⟨h.bounded, fun window hwindow => ?_, fun ho key hkey => ?_, fun hlimit window hwindow => ?_⟩
  · exact le_trans (h.early window hwindow) (env.monotonic_mono forward.monotonicReads)
  · rw [keys key hkey]
    exact h.unopened ho key hkey
  · obtain ⟨key, hkey, hstored, hothers⟩ := h.stored hlimit window hwindow
    refine ⟨key, hkey, (keys key hkey).trans hstored, fun key' hkey' hne => ?_⟩
    rw [keys key' hkey']
    exact hothers key' hkey' hne

variable {time : ℚ}

/-- A call that finds no open window under another key: its key's window is the number's window. -/
theorem current (h : PushWindow env windowSeconds limit digits o w) (positive : 0 < limit)
    (now : time = env.monotonic w.app.ambient.monotonicReads) (hkey : IsPushKey digits key)
    (apart : OthersEnded digits windowSeconds w.limiter key time) :
    FixedWindow.see (windowSeconds : ℚ) time 0 o = windowAt time key windowSeconds w.limiter ∧
      OthersEnded digits windowSeconds w.limiter key
        (windowAt time key windowSeconds w.limiter).start := by
  cases ho : o with
  | none =>
    rw [windowAt, h.unopened ho key hkey]
    exact ⟨rfl, apart⟩
  | some window =>
    obtain ⟨key₀, hkey₀, hstored, hothers⟩ := h.stored positive window ho
    have hearly : window.start ≤ time := now ▸ h.early window ho
    by_cases hsame : key = key₀
    · subst hsame
      rw [windowAt, hstored]
      refine ⟨rfl, ?_⟩
      by_cases hended : window.start + windowSeconds ≤ time
      · rw [FixedWindow.see_of_ended hended]
        exact apart
      · rw [FixedWindow.see_of_lt (not_le.mp hended)]
        exact hothers
    · -- the window of the number is under another key, so it has ended, and so has any of this key
      have hended := apart key₀ hkey₀ (Ne.symm hsame) window hstored
      rw [FixedWindow.see_of_ended hended, windowAt]
      cases hown : windowOf w.limiter key with
      | none => exact ⟨rfl, apart⟩
      | some own =>
        rw [FixedWindow.see_of_ended ((hothers key hkey hsame own hown).trans hearly)]
        exact ⟨rfl, apart⟩

/-- A payment call for the number that finds no open window under another key keeps the invariant. -/
theorem push (h : PushWindow env windowSeconds limit digits o w) {reached : Nat}
    (now : time = env.monotonic w.app.ambient.monotonicReads) (hkey : IsPushKey digits key)
    (apart : OthersEnded digits windowSeconds w.limiter key time)
    (forward : w.app.ambient.Forward w'.app.ambient)
    (limiter : w'.limiter = (allowAt time key limit windowSeconds w.limiter).2)
    (got : reached =
      if (allowAt time key limit windowSeconds w.limiter).1.allowed then 1 else 0) :
    PushWindow env windowSeconds limit digits
      (some (FixedWindow.see (windowSeconds : ℚ) time reached o)) w' := by
  have hearly : ∀ window ∈ o, window.start ≤ time := fun window hwindow =>
    now ▸ h.early window hwindow
  have hforward : time ≤ env.monotonic w'.app.ambient.monotonicReads :=
    now ▸ env.monotonic_mono forward.monotonicReads
  have hstart : (FixedWindow.see (windowSeconds : ℚ) time reached o).start ≤
      env.monotonic w'.app.ambient.monotonicReads :=
    (FixedWindow.start_see_le hearly).trans hforward
  rcases allowAt_cases time key limit windowSeconds w.limiter with
    ⟨hfull, hdenied, hsame⟩ | ⟨hroom, hallowed, hput⟩
  · -- denied: the window of the number is the full window of the key, which stays
    rw [hdenied, if_neg Bool.false_ne_true] at got
    subst got
    refine ⟨?_, ?_, ?_, ?_⟩
    · rintro _ ⟨rfl⟩
      rcases Nat.eq_zero_or_pos (FixedWindow.see (windowSeconds : ℚ) time 0 o).count with hzero | hpos
      · rw [hzero]
        exact Nat.zero_le _
      · exact h.bounded _ (FixedWindow.see_zero_of_pos hpos)
    · rintro _ ⟨rfl⟩
      exact hstart
    · intro hnone
      cases hnone
    · rintro positive _ ⟨rfl⟩
      obtain ⟨hsee, hothers⟩ := h.current positive now hkey apart
      have hpos : 0 < (windowAt time key windowSeconds w.limiter).count := by omega
      rw [limiter, hsame]
      refine ⟨key, hkey, ?_, ?_⟩
      · exact (FixedWindow.see_zero_of_pos hpos).trans (congrArg some hsee.symm)
      · exact hsee ▸ hothers
  · -- allowed: both windows take the call in
    rw [hallowed, if_pos rfl] at got
    subst got
    have positive : 0 < limit := by omega
    obtain ⟨hsee, hothers⟩ := h.current positive now hkey apart
    have hnext : FixedWindow.see (windowSeconds : ℚ) time 1 o =
        ⟨(windowAt time key windowSeconds w.limiter).start,
          (windowAt time key windowSeconds w.limiter).count + 1⟩ := by
      rw [FixedWindow.see_eq, hsee]
    refine ⟨?_, ?_, ?_, ?_⟩
    · rintro _ ⟨rfl⟩
      rw [hnext]
      show _ + 1 ≤ _
      omega
    · rintro _ ⟨rfl⟩
      exact hstart
    · intro hnone
      cases hnone
    · rintro _ _ ⟨rfl⟩
      rw [limiter, hput, hnext]
      refine ⟨key, hkey, ?_, fun key' hkey' hne => ?_⟩
      · rw [windowOf_put, if_pos rfl]
      · rw [windowOf_put, if_neg hne]
        exact hothers key' hkey' hne

end PushWindow

end Number

/-! ## Every run -/

section Run

variable {τ π : Type} {env : Env} {pydantic : Pydantic} {container : McpDependencies τ π RateWindows}

/-- An admitted payment names a number. -/
theorem digits_of_pushRequest {call : ToolCall} {key : String} {args : InitiateStkPush}
    (h : pushRequest pydantic container call = some (key, args)) :
    ∃ digits, args.digits = some digits := by
  cases call with
  | initiateStkPush =>
    obtain ⟨-, toolInput, -, -, rfl⟩ := admittedPush_eq_some h
    exact ⟨_, rfl⟩
  | initiatePayment =>
    obtain ⟨-, toolInput, -, -, rfl⟩ := admittedPush_eq_some h
    exact ⟨_, rfl⟩
  | _ => cases h

/-- One step keeps the invariant of every number, where its payment finds no open window under another
key: the limiter's window that counts this payment is then the one in which the payments before it were
counted. -/
theorem pushWindow_step (limiter : container.rateLimiter = InMemoryRateLimiter)
    (enabled : container.mcpSettings.rateLimitEnabled = true) (digits : String)
    (history : List (McpStep τ π RateWindows)) (w : McpWorld τ π RateWindows) (call : ToolCall)
    (apart : PushesApart env pydantic container container.mcpSettings.rateLimitWindowSeconds
      (stepAt (mcpStep env pydantic container) w call))
    (h : PushWindow env container.mcpSettings.rateLimitWindowSeconds
      container.mcpSettings.rateLimitMaxStkPush digits
      (FixedWindow.openWindow (container.mcpSettings.rateLimitWindowSeconds : ℚ)
        (pushArrivals env pydantic container digits history)) w) :
    PushWindow env container.mcpSettings.rateLimitWindowSeconds
      container.mcpSettings.rateLimitMaxStkPush digits
      (FixedWindow.openWindow (container.mcpSettings.rateLimitWindowSeconds : ℚ)
        (pushArrivals env pydantic container digits
          (history ++ [stepAt (mcpStep env pydantic container) w call])))
      (mcpStep env pydantic container call w).2 := by
  have hforward := mcpStep_forward env pydantic container call w
  rw [pushArrivals, List.filterMap_append, List.filterMap_cons, List.filterMap_nil]
  cases hrequest : pushRequest pydantic container call with
  | none =>
    have hnone : pushArrival env pydantic container digits
        (stepAt (mcpStep env pydantic container) w call) = none := by
      simp only [pushArrival, stepAt, hrequest]
    rw [hnone, List.append_nil]
    exact h.same hforward ((mcpStep_aside limiter hrequest w).2 digits)
  | some request =>
    obtain ⟨key, args⟩ := request
    obtain ⟨hlimiter, hcalls⟩ := mcpStep_push env limiter enabled hrequest w
    obtain ⟨digits', hdigits⟩ := digits_of_pushRequest hrequest
    have hkey := isPushKey_of_pushRequest hrequest hdigits
    by_cases hsame : digits' = digits
    · subst hsame
      have harrival : pushArrival env pydantic container digits'
          (stepAt (mcpStep env pydantic container) w call) =
          some (env.monotonic w.app.ambient.monotonicReads,
            pushesReached digits' (stepAt (mcpStep env pydantic container) w call)) := by
        simp only [pushArrival, stepAt, hrequest, hdigits, if_true, pushTime]
      rw [harrival, FixedWindow.openWindow_snoc]
      refine h.push rfl hkey ?_ hforward hlimiter ?_
      · intro key' hkey' hne stored hstored
        exact apart key args digits' hrequest hdigits _
          (InMemoryRateLimiter.windowOf_eq_some.mp hstored)
          hkey' hne
      · simp only [pushesReached, stepAt, hcalls]
        split
        next => simp [hdigits]
        next => simp
    · have hnone : pushArrival env pydantic container digits
          (stepAt (mcpStep env pydantic container) w call) = none := by
        simp [pushArrival, stepAt, hrequest, hdigits, hsame]
      rw [hnone, List.append_nil]
      refine h.same hforward fun key' hkey' => ?_
      have hne : key' ≠ key := by
        intro he
        exact hsame ((digits_of_isPushKey hkey).symm.trans (he ▸ digits_of_isPushKey hkey'))
      rw [hlimiter]
      exact InMemoryRateLimiter.windowOf_allowAt _ _ _ hne

end Run

section Runs

variable {τ π : Type} (env : Env) (pydantic : Pydantic) (container : AppContainer τ π)
  (settings : McpSettings)

/-- The server with the in-memory limiter, before its first call. -/
def mcpStart (app : World τ π) : McpWorld τ π RateWindows where
  app := app
  limiter := Keyed.empty

/-- **The STK push limit, for one number**: in a run in which no payment call finds an open window
under another key of its number, at most `rate_limit_max_stk_push` payments for the number reach the
payment service in the window that the first of its calls opened. Every prefix of a run is a run, so
this holds in each window of the run. -/
theorem pushes_limited_of_apart (enabled : settings.rateLimitEnabled = true) (app : World τ π)
    (calls : List ToolCall)
    (apart : ∀ st ∈ trace (mcpStep env pydantic (.memory container settings)) (mcpStart app) calls,
      PushesApart env pydantic (.memory container settings) settings.rateLimitWindowSeconds st)
    (digits : String) :
    ∀ window ∈ FixedWindow.openWindow (settings.rateLimitWindowSeconds : ℚ)
        (pushArrivals env pydantic (.memory container settings) digits
          (trace (mcpStep env pydantic (.memory container settings)) (mcpStart app) calls)),
      window.count ≤ settings.rateLimitMaxStkPush.toNat := by
  have hinvariant := invariant_of
    (I := fun history w => PushWindow env settings.rateLimitWindowSeconds
      settings.rateLimitMaxStkPush digits
      (FixedWindow.openWindow (settings.rateLimitWindowSeconds : ℚ)
        (pushArrivals env pydantic (.memory container settings) digits history)) w)
    (s := mcpStart app) (.fresh rfl)
    (fun history w call hC h => pushWindow_step rfl enabled digits history w call hC h) calls apart
  exact hinvariant.bounded

end Runs

/-- A call that finds windows of its own key only. -/
theorem pushesApart_of_key {τ π : Type} {env : Env} {pydantic : Pydantic}
    {container : McpDependencies τ π RateWindows} {windowSeconds : Int}
    {st : McpStep τ π RateWindows} {key : String}
    (stored : ∀ window ∈ st.before.limiter.values, window.key = key)
    (limited : (pushRequest pydantic container st.input).map Prod.fst = some key) :
    PushesApart env pydantic container windowSeconds st := by
  intro key' args digits hrequest _ window hwindow _ hne
  rw [hrequest] at limited
  exact absurd ((stored window hwindow).trans (Option.some.inj limited).symm) hne

/-! ## Six payments in one window -/

/-- A push of ten shillings to one number. -/
def tenShillingPush : ToolCall :=
  .initiateStkPush (.str "254700000001") (.int 10) (.str "ref") (.str "d") .none

/-- The same push through the generic tool. -/
def tenShillingPayment : ToolCall :=
  .initiatePayment (.str "254700000001") (.int 10) (.str "ref") (.str "d") .none

/-- The container of local development behind the server, with the default limits. -/
def developmentServer : McpDependencies Transactions Unit RateWindows :=
  .memory (.mock {}) {}

/-- Six calls of one tool with one spelling of the number: every call finds only its own window. -/
theorem pushes_limited_of_apart_oneKey :
    (FixedWindow.openWindow ((60 : Int) : ℚ)
        (pushArrivals Env.still .strict developmentServer "254700000001"
          (trace (mcpStep Env.still .strict developmentServer) (mcpStart (start Keyed.empty ()))
            (List.replicate 6 tenShillingPush)))).all
      (fun window => decide (window.count ≤ 5)) = true := by
  refine (Option.all_eq_true _ _).mpr fun window hwindow => decide_eq_true ?_
  refine pushes_limited_of_apart Env.still .strict (.mock {}) {} rfl (start Keyed.empty ())
    (List.replicate 6 tenShillingPush) ?_ "254700000001" window hwindow
  have hown : (trace (mcpStep Env.still .strict developmentServer) (mcpStart (start Keyed.empty ()))
      (List.replicate 6 tenShillingPush)).all (fun st =>
        st.before.limiter.values.all (fun window =>
          decide (window.key = "initiate_stk_push:254700000001")) &&
        decide ((pushRequest .strict developmentServer st.input).map Prod.fst =
          some "initiate_stk_push:254700000001")) = true := by decide +kernel
  intro st hst
  have hst' := List.all_eq_true.mp hown st hst
  rw [Bool.and_eq_true, List.all_eq_true, decide_eq_true_eq] at hst'
  exact pushesApart_of_key (fun window hwindow => of_decide_eq_true (hst'.1 window hwindow)) hst'.2

/-- The default limit is five pushes a minute. Five calls of `initiate_stk_push` and one of
`initiate_payment` for one number, all at one time, reach the payment service. -/
theorem sixth_push_reaches :
    ∃ window ∈ FixedWindow.openWindow (developmentServer.mcpSettings.rateLimitWindowSeconds : ℚ)
        (pushArrivals Env.still .strict developmentServer "254700000001"
          (trace (mcpStep Env.still .strict developmentServer)
            (mcpStart (start Keyed.empty ()))
            (List.replicate 5 tenShillingPush ++ [tenShillingPayment]))),
      developmentServer.mcpSettings.rateLimitMaxStkPush.toNat < window.count := by
  refine ⟨⟨0, 6⟩, ?_, by decide⟩
  exact Option.mem_def.mpr (by decide +kernel)

end MpesaMcp
