import MpesaMcp.Laws.Callbacks

/-!
# What the callback route does

A delivery is authenticated where its secret and its source pass. An authenticated delivery whose
replay key is free, or that is not checked, reaches the handler; the others reach no store but the
record of replay keys.
-/

set_option autoImplicit false

namespace MpesaMcp

open Library Python StkCallbackHandler

/-- The shared secret of a request passes. -/
def CallbackRoute.SecretValid (self : CallbackRoute) (callbackSecret : Option String) : Prop :=
  match self.settings.callbackSharedSecret with
  | none => True
  | some expectedSecret =>
    expectedSecret = "" ∨ ∃ secret, callbackSecret = some secret ∧
      compareDigest secret expectedSecret = .ok true

/-- The source of a request passes. -/
def CallbackRoute.SourceVerified (self : CallbackRoute) (headers : Headers) : Prop :=
  ∃ decision, self.sourceVerifier.verify headers = .ok decision ∧ decision.allowed = true

/-- The checks in front of the replay check pass. -/
def CallbackRoute.Authenticated (self : CallbackRoute) (request : CallbackRequest) : Prop :=
  self.SecretValid request.callbackSecret ∧ self.SourceVerified request.headers

instance (self : CallbackRoute) (callbackSecret : Option String) :
    Decidable (self.SecretValid callbackSecret) :=
  match h : self.settings.callbackSharedSecret, callbackSecret with
  | none, _ => .isTrue (by simp only [CallbackRoute.SecretValid, h])
  | some expectedSecret, none => decidable_of_iff (expectedSecret = "") (by
      simp [CallbackRoute.SecretValid, h])
  | some expectedSecret, some secret =>
    decidable_of_iff (expectedSecret = "" ∨ compareDigest secret expectedSecret = .ok true) (by
      simp [CallbackRoute.SecretValid, h])

instance (self : CallbackRoute) (headers : Headers) : Decidable (self.SourceVerified headers) :=
  match h : self.sourceVerifier.verify headers with
  | .error _ => .isFalse fun ⟨_, hok, _⟩ => by cases h.symm.trans hok
  | .ok decision => decidable_of_iff (decision.allowed = true)
      ⟨fun hallowed => ⟨decision, h, hallowed⟩, fun ⟨_, hok, hallowed⟩ => by
        cases h.symm.trans hok
        exact hallowed⟩

instance (self : CallbackRoute) (request : CallbackRequest) : Decidable (self.Authenticated request) :=
  inferInstanceAs (Decidable (_ ∧ _))

/-- A key is taken at this reading of the monotonic clock. -/
def ReplayStore.Live (seen : ReplayStore) (key : String) (now : ℚ) : Prop :=
  ∃ entry, seen.get key = some entry ∧ now < entry.2

variable {τ π : Type} (env : Env) (container : AppContainer τ π)

/-- The record of replay keys after a free key is stored. -/
def World.claimKey (key : String) (windowSeconds : Int) (w : World τ π) : World τ π :=
  let now := (w.ambient.monotonic env).1
  { w with
    ambient := (w.ambient.monotonic env).2
    seen := InMemoryReplayProtection.pruneExpired now (w.seen.put (key, now + windowSeconds)) }

/-- The world in which the handler meets a delivery with a free key. -/
def World.admitted (payload : PyDict) (w : World τ π) : World τ π :=
  if container.settings.callbackReplayProtectionEnabled then
    w.claimKey env (buildCallbackReplayKey env.toRuntime payload)
      container.settings.callbackReplayWindowSeconds
  else w

/-- The delivery meets the replay check with its key taken. -/
def World.Taken (payload : PyDict) (w : World τ π) : Prop :=
  container.settings.callbackReplayProtectionEnabled = true ∧
    ReplayStore.Live w.seen (buildCallbackReplayKey env.toRuntime payload)
      (w.ambient.monotonic env).1

@[simp] theorem World.admitted_transactions (payload : PyDict) (w : World τ π) :
    (w.admitted env container payload).transactions = w.transactions := by
  unfold World.admitted
  split <;> rfl

@[simp] theorem World.admitted_clockReads (payload : PyDict) (w : World τ π) :
    (w.admitted env container payload).ambient.clockReads = w.ambient.clockReads := by
  unfold World.admitted
  split <;> rfl

@[simp] theorem World.admitted_statements (payload : PyDict) (w : World τ π) :
    (w.admitted env container payload).ambient.statements = w.ambient.statements := by
  unfold World.admitted
  split <;> rfl

/-- A key is taken by its own claim until the window is over. -/
theorem live_claimKey {key : String} {windowSeconds : Int} {w : World τ π} {now : ℚ}
    (later : (w.ambient.monotonic env).1 ≤ now) :
    ReplayStore.Live (w.claimKey env key windowSeconds).seen key now ↔
      now < (w.ambient.monotonic env).1 + windowSeconds := by
  have hput : (w.seen.put (key, (w.ambient.monotonic env).1 + windowSeconds)).get key =
      some (key, (w.ambient.monotonic env).1 + windowSeconds) := Keyed.get_put_of_eq _ rfl
  constructor
  · rintro ⟨entry, hget, hnow⟩
    cases hput.symm.trans (Keyed.get_filter.mp hget).1
    exact hnow
  · intro hnow
    refine ⟨_, Keyed.get_filter.mpr ⟨hput, decide_eq_true ?_⟩, hnow⟩
    exact lt_of_le_of_lt later hnow

/-- A key that is taken was taken before. -/
theorem ReplayStore.Live.earlier {seen : ReplayStore} {key : String} {t now : ℚ}
    (h : Live seen key now) (earlier : t ≤ now) : Live seen key t := by
  obtain ⟨entry, hget, hnow⟩ := h
  exact ⟨entry, hget, lt_of_le_of_lt earlier hnow⟩

theorem run_checkAndStore_live {key : String} {windowSeconds : Int} {w : World τ π}
    (live : ReplayStore.Live w.seen key (w.ambient.monotonic env).1) :
    handle env container (.checkAndStore key windowSeconds) w =
      (.ok ⟨false, key, "Duplicate callback replay detected."⟩,
        { w with ambient := (w.ambient.monotonic env).2 }) := by
  obtain ⟨entry, hget, hnow⟩ := live
  simp only [handle, InMemoryReplayProtection.checkAndStore, hget]
  rw [if_pos (decide_eq_true hnow)]

theorem run_checkAndStore_free {key : String} {windowSeconds : Int} {w : World τ π}
    (free : ¬ ReplayStore.Live w.seen key (w.ambient.monotonic env).1) :
    handle env container (.checkAndStore key windowSeconds) w =
      (.ok ⟨true, key, "Callback replay key accepted."⟩, w.claimKey env key windowSeconds) := by
  simp only [handle, InMemoryReplayProtection.checkAndStore]
  cases hget : w.seen.get key with
  | none => rfl
  | some entry =>
    have hnow : ¬ (w.ambient.monotonic env).1 < entry.2 := fun hnow => free ⟨entry, hget, hnow⟩
    simp only [decide_eq_false hnow]
    rfl

/-! ## The checks of the route -/

/-- What a check in front of the handler comes down to: it passes, it raises, or it reports why it
rejects the request. -/
inductive CheckRuns (passes raises : Prop) (rejection : CallbackResponse → Prop)
    (p : App (Option CallbackResponse)) : Prop
  | passed (holds : passes) (quiet : ¬ raises) (program : p = pure none)
  | raised (fails : ¬ passes) (raised : raises) (e : Exn) (program : p = .raise e)
  | rejected (fails : ¬ passes) (quiet : ¬ raises) (event : AuditEvent) (short : event.Short)
      (response : CallbackResponse) (answer : rejection response)
      (program : p = ask (.logEvent event) >>= fun _ => pure (some response))

/-- The comparison of the shared secret raises. -/
def CallbackRoute.SecretRaises (self : CallbackRoute) (callbackSecret : Option String) : Prop :=
  ∃ expectedSecret secret, self.settings.callbackSharedSecret = some expectedSecret ∧
    expectedSecret ≠ "" ∧ callbackSecret = some secret ∧
    ∃ e, compareDigest secret expectedSecret = .error e

/-- The verification of the source raises. -/
def CallbackRoute.SourceRaises (self : CallbackRoute) (headers : Headers) : Prop :=
  ∃ e, self.sourceVerifier.verify headers = .error e

section Secret

variable {route : CallbackRoute} {expectedSecret : String}
  (configured : route.settings.callbackSharedSecret = some expectedSecret)

include configured

/-- A configured secret passes the requests that repeat it. -/
theorem secretValid_iff (nonempty : expectedSecret ≠ "") (secret : String) :
    route.SecretValid (some secret) ↔ compareDigest secret expectedSecret = .ok true := by
  unfold CallbackRoute.SecretValid
  rw [configured]
  constructor
  · rintro (hempty | ⟨_, h, hok⟩)
    · exact absurd hempty nonempty
    · cases h
      exact hok
  · exact fun hok => Or.inr ⟨secret, rfl, hok⟩

theorem secretRaises_iff (nonempty : expectedSecret ≠ "") (secret : String) :
    route.SecretRaises (some secret) ↔ ∃ e, compareDigest secret expectedSecret = .error e := by
  constructor
  · rintro ⟨_, _, h, -, h', hraises⟩
    cases configured.symm.trans h
    cases h'
    exact hraises
  · exact fun hraises => ⟨expectedSecret, secret, configured, nonempty, rfl, hraises⟩

/-- The check of a request that sends a secret. -/
theorem validateCallbackSecret_runs_sent (nonempty : expectedSecret ≠ "") (secret : String) :
    CheckRuns (route.SecretValid (some secret)) (route.SecretRaises (some secret))
      (· = .httpException 401 "Invalid callback credentials.")
      (route.validateCallbackSecret (some secret)) := by
  rw [secretValid_iff configured nonempty, secretRaises_iff configured nonempty]
  unfold CallbackRoute.validateCallbackSecret
  simp only [configured, if_neg nonempty]
  cases hcompare : compareDigest secret expectedSecret with
  | error e =>
    refine .raised ?_ ⟨e, rfl⟩ e rfl
    intro h
    cases h
  | ok valid =>
    have hquiet : ¬ ∃ e, (.ok valid : Except Exn Bool) = .error e := by
      rintro ⟨e, h⟩
      cases h
    cases valid with
    | true => exact .passed rfl hquiet rfl
    | false =>
      refine .rejected ?_ hquiet _ (short_mpesaCallback (by decide) _) _ rfl rfl
      intro h
      cases h

end Secret

/-- The secret check of the route: it passes where no secret is configured or the request repeats it,
and otherwise answers 401; a comparison of other than ASCII text raises. -/
theorem validateCallbackSecret_runs (route : CallbackRoute) (callbackSecret : Option String) :
    CheckRuns (route.SecretValid callbackSecret) (route.SecretRaises callbackSecret)
      (· = .httpException 401 "Invalid callback credentials.")
      (route.validateCallbackSecret callbackSecret) := by
  cases hsecret : route.settings.callbackSharedSecret with
  | none =>
    refine .passed (by simp only [CallbackRoute.SecretValid, hsecret]) ?_
      (by simp only [CallbackRoute.validateCallbackSecret, hsecret])
    rintro ⟨expectedSecret, secret, h, -⟩
    cases hsecret.symm.trans h
  | some expectedSecret =>
    by_cases hempty : expectedSecret = ""
    · refine .passed (by simp [CallbackRoute.SecretValid, hsecret, hempty]) ?_
        (by simp only [CallbackRoute.validateCallbackSecret, hsecret, hempty, if_true])
      rintro ⟨_, secret, h, hne, -⟩
      cases hsecret.symm.trans h
      exact hne hempty
    · cases callbackSecret with
      | some secret => exact validateCallbackSecret_runs_sent hsecret hempty secret
      | none =>
        unfold CallbackRoute.validateCallbackSecret
        simp only [hsecret, if_neg hempty]
        refine .rejected ?_ ?_ _ (short_mpesaCallback (by decide) _) _ rfl rfl
        · simp [CallbackRoute.SecretValid, hsecret, hempty]
        · rintro ⟨_, _, _, _, h, _⟩
          cases h

/-- The source check of the route: it passes where the verifier trusts the source that the headers
tell, and otherwise logs and answers 403. -/
theorem rejectUntrusted_runs (route : CallbackRoute) (headers : Headers) :
    CheckRuns (route.SourceVerified headers) (route.SourceRaises headers)
      (fun response => ∃ reason, response = .json 403 "callback_source_rejected" reason)
      (route.rejectUntrustedCallbackSourceIfNeeded headers) := by
  unfold CallbackRoute.rejectUntrustedCallbackSourceIfNeeded CallbackRoute.SourceVerified
    CallbackRoute.SourceRaises
  cases hverify : route.sourceVerifier.verify headers with
  | error e =>
    refine .raised ?_ ⟨e, rfl⟩ e rfl
    rintro ⟨decision, h, -⟩
    cases h
  | ok decision =>
    have hquiet : ¬ ∃ e, (Except.ok decision : Except Exn _) = .error e := by
      rintro ⟨e, h⟩
      cases h
    cases hallowed : decision.allowed with
    | true =>
      refine .passed ⟨decision, rfl, hallowed⟩ hquiet ?_
      show ite _ _ _ = _
      rw [hallowed, if_pos rfl]
    | false =>
      refine .rejected ?_ hquiet _
        (short_mpesaCallback (by decide : "stk_callback_source_rejected".length ≤ 128)
          [("reason", .str decision.reason)]) _ ⟨decision.reason, rfl⟩ ?_
      · rintro ⟨d, h, htrue⟩
        cases h
        cases hallowed.symm.trans htrue
      · show ite _ _ _ = _
        rw [hallowed, if_neg Bool.false_ne_true]
        rfl

/-- A check that passes sends nothing. -/
theorem CheckRuns.program_of_passes {passes raises : Prop} {rejection : CallbackResponse → Prop}
    {p : App (Option CallbackResponse)} (h : CheckRuns passes raises rejection p) (holds : passes) :
    p = pure none := by
  cases h with
  | passed _ _ program => exact program
  | raised fails => exact absurd holds fails
  | rejected fails => exact absurd holds fails

/-- What follows a check: its rejection, or the rest of the route. -/
def afterCheck (rest : App CallbackResponse) : Option CallbackResponse → App CallbackResponse
  | some response => pure response
  | none => rest

theorem post_eq (py : Runtime) (route : CallbackRoute) (request : CallbackRequest) :
    route.post py request =
      route.validateCallbackSecret request.callbackSecret >>= afterCheck
        (route.rejectUntrustedCallbackSourceIfNeeded request.headers >>= afterCheck
          (route.rejectDuplicateCallbackIfNeeded py request.payload >>= afterCheck
            (CallbackRoute.processCallback py request.payload))) := by
  have hafter : ∀ rest : App CallbackResponse, afterCheck rest = fun
      | some response => pure response
      | none => rest := by
    intro rest
    funext answer
    cases answer <;> rfl
  simp only [hafter]
  rfl

/-- A check in front of the handler, run in a container: whichever way it ends, it leaves the
transactions and the replay store alone. -/
theorem run_checkRuns {passes raises : Prop} {rejection : CallbackResponse → Prop}
    {p : App (Option CallbackResponse)} (h : CheckRuns passes raises rejection p) (w : World τ π) :
    let r := Prog.run (handle env container) p w
    (passes ∧ r = (.ok none, w)) ∨
    (¬ passes ∧ ((∃ response, rejection response ∧ r.1 = .ok (some response)) ∨ ∃ e, r.1 = .error e) ∧
      ∃ events, r.2 = { w with auditEvents := events }) := by
  cases h with
  | passed holds _ program =>
    subst program
    exact Or.inl ⟨holds, rfl⟩
  | raised fails _ e program =>
    subst program
    exact Or.inr ⟨fails, Or.inr ⟨e, rfl⟩, w.auditEvents, rfl⟩
  | rejected fails _ event _ response answer program =>
    subst program
    exact Or.inr ⟨fails, Or.inl ⟨response, answer, rfl⟩, _, rfl⟩

/-- The replay check of the route: a free key is taken for the window, and a taken one answers 409. It
is the only check that writes, and what it writes stays when the handler fails. -/
theorem run_rejectDuplicate (payload : PyDict) (w : World τ π) :
    let r := Prog.run (handle env container)
      (container.callbackRoute.rejectDuplicateCallbackIfNeeded env.toRuntime payload) w
    (w.Taken env container payload ∧
      r.1 = .ok (some (.json 409 "duplicate_callback" "Duplicate callback replay detected.")) ∧
      ∃ events, r.2 = { w with ambient := (w.ambient.monotonic env).2, auditEvents := events }) ∨
    (¬ w.Taken env container payload ∧ r = (.ok none, w.admitted env container payload)) := by
  intro r
  unfold World.Taken World.admitted
  cases henabled : container.settings.callbackReplayProtectionEnabled with
  | false =>
    refine Or.inr ⟨fun h => absurd h.1 (by decide), ?_⟩
    have hroute : container.callbackRoute.settings.callbackReplayProtectionEnabled = false := henabled
    simp only [r, CallbackRoute.rejectDuplicateCallbackIfNeeded, hroute]
    rfl
  | true =>
    have hroute : container.callbackRoute.settings.callbackReplayProtectionEnabled = true := henabled
    have hr : r = Prog.run (handle env container)
        (container.callbackRoute.rejectDuplicateCallbackIfNeeded env.toRuntime payload) w := rfl
    by_cases hlive : ReplayStore.Live w.seen (buildCallbackReplayKey env.toRuntime payload)
        (w.ambient.monotonic env).1
    · left
      simp only [CallbackRoute.rejectDuplicateCallbackIfNeeded, hroute, if_true, Prog.run_bind,
        Prog.run_attempt, run_ask, run_checkAndStore_live env container hlive] at hr
      rw [hr]
      exact ⟨⟨rfl, hlive⟩, rfl, _, rfl⟩
    · right
      simp only [CallbackRoute.rejectDuplicateCallbackIfNeeded, hroute, if_true, Prog.run_bind,
        Prog.run_attempt, run_ask, run_checkAndStore_free env container hlive] at hr
      rw [hr]
      exact ⟨fun h => hlive h.2, rfl⟩

/-! ## One delivery -/

/-- The handler and its callers leave the replay store alone. -/
theorem run_process_seen (payload : PyDict) (w : World τ π) :
    (Prog.run (handle env container) (process env.toRuntime payload) w).2.seen = w.seen := by
  refine run_keeps env container World.seen (P := Msg.OfHandler) ?_ (sends_process _ payload) w
  intro m hm w
  cases m <;> first | rfl | exact absurd hm id

/-- The route answers the infrastructure failures of the handler, and hands on the rest: what the
handler did to the stores stays done either way. -/
theorem run_processCallback (payload : PyDict) (w : World τ π) :
    let p := Prog.run (handle env container) (process env.toRuntime payload) w
    let r := Prog.run (handle env container)
      (CallbackRoute.processCallback env.toRuntime payload) w
    r.2.store = p.2.store ∧ r.2.seen = w.seen ∧
      ∀ result, r.1 = .ok (.processed result) ↔ p.1 = .ok result := by
  have hseen := run_process_seen env container payload w
  simp only [CallbackRoute.processCallback, Prog.run_bind, Prog.run_attempt]
  cases hp : Prog.run (handle env container) (process env.toRuntime payload) w with
  | mk answer w' =>
  rw [hp] at hseen
  cases answer with
  | ok result => exact ⟨rfl, hseen, fun result' => by simp⟩
  | error e =>
    cases e with
    | infrastructureUnavailable message =>
      refine ⟨rfl, hseen, fun result => ?_⟩
      show (Except.ok (.json 503 "infrastructure_unavailable" message) :
        Except Exn CallbackResponse) = _ ↔ _
      simp only [Except.ok.injEq, reduceCtorEq]
    | _ => exact ⟨rfl, hseen, fun result => by simp⟩

/-- The handler is never answered for as a duplicate. -/
theorem run_processCallback_ne_duplicate (payload : PyDict) (w : World τ π) (status reason : String) :
    (Prog.run (handle env container) (CallbackRoute.processCallback env.toRuntime payload) w).1 ≠
      .ok (.json 409 status reason) := by
  simp only [CallbackRoute.processCallback, Prog.run_bind, Prog.run_attempt]
  cases (Prog.run (handle env container) (process env.toRuntime payload) w).1 with
  | ok result => exact fun h => nomatch h
  | error e =>
    cases e with
    | infrastructureUnavailable message => exact fun h => nomatch h
    | _ => exact fun h => nomatch h

/-- The reply to a delivery tells its response. -/
theorem response_of_reply {output output' : Except Exn CallbackResponse}
    (h : output.map Reply.callback = output'.map Reply.callback) : output = output' := by
  cases output with
  | error e =>
    cases output' with
    | error e' => exact congrArg _ (Except.error.inj h)
    | ok response => cases h
  | ok response =>
    cases output' with
    | error e => cases h
    | ok response' => exact congrArg _ (Reply.callback.inj (Except.ok.inj h))

/-- What one delivery answers and does. -/
inductive DeliveryCase (env : Env) (container : AppContainer τ π) (request : CallbackRequest)
    (w : World τ π) (output : Except Exn CallbackResponse) (w' : World τ π) : Prop
  | rejected (unauthenticated : ¬ container.callbackRoute.Authenticated request)
      (answer : output = .ok (.httpException 401 "Invalid callback credentials.") ∨
        (∃ reason, output = .ok (.json 403 "callback_source_rejected" reason)) ∨
        ∃ e, output = .error e)
      (after : ∃ events, w' = { w with auditEvents := events })
  | duplicate (authenticated : container.callbackRoute.Authenticated request)
      (taken : w.Taken env container request.payload)
      (answer : output = .ok (.json 409 "duplicate_callback" "Duplicate callback replay detected."))
      (after : ∃ events,
        w' = { w with ambient := (w.ambient.monotonic env).2, auditEvents := events })
  | delivered (authenticated : container.callbackRoute.Authenticated request)
      (free : ¬ w.Taken env container request.payload)
      (ran : Prog.run (handle env container)
        (CallbackRoute.processCallback env.toRuntime request.payload)
          (w.admitted env container request.payload) = (output, w'))

/-- **What the route does** with a delivery: it is rejected before the replay check, found a duplicate,
or handed to the handler with its key taken. -/
theorem delivery_cases (request : CallbackRequest) (w : World τ π) :
    let r := Prog.run (handle env container) (container.callbackRoute.post env.toRuntime request) w
    DeliveryCase env container request w r.1 r.2 := by
  intro r
  have hr : r = Prog.run (handle env container)
    (container.callbackRoute.post env.toRuntime request) w := rfl
  simp only [CallbackRoute.post, Prog.run_bind] at hr
  rcases run_checkRuns env container (validateCallbackSecret_runs container.callbackRoute
    request.callbackSecret) w with ⟨hsecret, hrun⟩ | ⟨hsecret, hanswer, hafter⟩
  · simp only [hrun, CallbackRoute.handleStkCallback, Prog.run_bind] at hr
    rcases run_checkRuns env container (rejectUntrusted_runs container.callbackRoute request.headers) w
      with ⟨hsource, hrun⟩ | ⟨hsource, hanswer, hafter⟩
    · simp only [hrun, Prog.run_bind] at hr
      rcases run_rejectDuplicate env container request.payload w with
        ⟨htaken, hanswer, hafter⟩ | ⟨hfree, hrun⟩
      · cases hdup : Prog.run (handle env container)
            (container.callbackRoute.rejectDuplicateCallbackIfNeeded env.toRuntime
              request.payload) w with
        | mk answer w' =>
        rw [hdup] at hanswer hafter hr
        cases hanswer
        rw [hr]
        exact .duplicate ⟨hsecret, hsource⟩ htaken rfl hafter
      · rw [hrun] at hr
        exact .delivered ⟨hsecret, hsource⟩ hfree hr.symm
    · cases huntrusted : Prog.run (handle env container)
          (container.callbackRoute.rejectUntrustedCallbackSourceIfNeeded request.headers) w with
      | mk answer w' =>
      rw [huntrusted] at hanswer hafter hr
      have hun : ¬ container.callbackRoute.Authenticated request := fun h => hsource h.2
      rcases hanswer with ⟨_, ⟨reason, rfl⟩, rfl⟩ | ⟨e, rfl⟩
      · rw [hr]
        exact .rejected hun (Or.inr (Or.inl ⟨reason, rfl⟩)) hafter
      · rw [hr]
        exact .rejected hun (Or.inr (Or.inr ⟨e, rfl⟩)) hafter
  · cases hinvalid : Prog.run (handle env container)
        (container.callbackRoute.validateCallbackSecret request.callbackSecret) w with
    | mk answer w' =>
    rw [hinvalid] at hanswer hafter hr
    have hun : ¬ container.callbackRoute.Authenticated request := fun h => hsecret h.1
    rcases hanswer with ⟨_, rfl, rfl⟩ | ⟨e, rfl⟩
    · rw [hr]
      exact .rejected hun (Or.inl rfl) hafter
    · rw [hr]
      exact .rejected hun (Or.inr (Or.inr ⟨e, rfl⟩)) hafter

/-- An authenticated delivery with its key taken. -/
theorem step_duplicate {request : CallbackRequest} {w : World τ π}
    (authenticated : container.callbackRoute.Authenticated request)
    (taken : w.Taken env container request.payload) :
    (step env container (.postCallback request) w).1 =
      .ok (.callback (.json 409 "duplicate_callback" "Duplicate callback replay detected.")) := by
  simp only [step, program, Prog.run_map]
  cases delivery_cases env container request w with
  | rejected unauthenticated _ _ => exact absurd authenticated unauthenticated
  | duplicate _ _ answer _ => rw [answer]; rfl
  | delivered _ free _ => exact absurd taken free

/-- An authenticated delivery that reaches the handler. -/
theorem step_delivered {request : CallbackRequest} {w : World τ π}
    (authenticated : container.callbackRoute.Authenticated request)
    (free : ¬ w.Taken env container request.payload) :
    step env container (.postCallback request) w =
      Prog.run (handle env container)
        (Reply.callback <$> CallbackRoute.processCallback env.toRuntime request.payload)
        (w.admitted env container request.payload) := by
  simp only [step, program, Prog.run_map]
  cases delivery_cases env container request w with
  | rejected unauthenticated _ _ => exact absurd authenticated unauthenticated
  | duplicate _ taken _ _ => exact absurd taken free
  | delivered _ _ ran => rw [ran]

/-- What one delivery does to the transactions and to the replay store: rejected or replayed it changes
neither, and otherwise it takes its key and leaves what the handler leaves. -/
theorem step_postCallback (request : CallbackRequest) (w : World τ π) :
    let w' := (step env container (.postCallback request) w).2
    ((¬ container.callbackRoute.Authenticated request ∨ w.Taken env container request.payload) ∧
      w'.transactions = w.transactions ∧ w'.seen = w.seen) ∨
    (container.callbackRoute.Authenticated request ∧ ¬ w.Taken env container request.payload ∧
      w'.transactions = (Prog.run (handle env container) (process env.toRuntime request.payload)
        (w.admitted env container request.payload)).2.transactions ∧
      w'.seen = (w.admitted env container request.payload).seen) := by
  intro w'
  have hw' : w' = (Prog.run (handle env container)
      (container.callbackRoute.post env.toRuntime request) w).2 := by
    simp only [w', step, program, Prog.run_map]
  rw [hw']
  cases delivery_cases env container request w with
  | rejected unauthenticated _ after =>
    obtain ⟨events, hafter⟩ := after
    exact Or.inl ⟨Or.inl unauthenticated, by rw [hafter], by rw [hafter]⟩
  | duplicate _ taken _ after =>
    obtain ⟨events, hafter⟩ := after
    exact Or.inl ⟨Or.inr taken, by rw [hafter], by rw [hafter]⟩
  | delivered authenticated free ran =>
    obtain ⟨hstore, hseen, -⟩ := run_processCallback env container request.payload
      (w.admitted env container request.payload)
    rw [ran] at hstore hseen
    exact Or.inr ⟨authenticated, free, congrArg Prod.snd hstore, hseen⟩

end MpesaMcp
