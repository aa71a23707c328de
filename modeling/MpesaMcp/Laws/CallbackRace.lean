import MpesaMcp.Laws.ConcurrentPushes
import MpesaMcp.Laws.ReplayProtection

/-!
# A payment and the deliveries of its callback

The provider accepts a push before `_execute_stk_push` has stored it, and may deliver the callback from
then on. A delivery whose lookup overtakes the save finds no transaction, and its replay key stays
taken: no later delivery in the window reaches the handler. `callback_settles_iff` says that this is the
only way to lose a callback.
-/

set_option autoImplicit false

namespace MpesaMcp

open Library Python PaymentService StkCallbackHandler

/-- One payment, the answer of the provider to it, and the callback about it. -/
structure Race where
  request : InitiatePayment
  idempotencyKey : String
  response : PaymentInitiationResponse
  payload : PyDict
  fields : CallbackFields

/-! ## The property -/

/-- Programs over one world of the in-memory repository. -/
abbrev RacePool (π : Type) := Pool Exn Msg.Answer Reply (World Transactions π)

namespace Race

variable {π : Type} (race : Race)

/-- The replay key of the callback. -/
def replayKey (py : Runtime) : String := buildCallbackReplayKey py race.payload

/-- The payment, and beside it the deliveries. -/
def pool (container : AppContainer Transactions π) (py : Runtime) (deliveries : List CallbackRequest)
    (w : World Transactions π) : RacePool π where
  state := w
  threads := (.payment <$> executeStkPush race.request race.idempotencyKey) ::
    deliveries.map fun request => program container py (.postCallback request)

/-- The transaction of the payment is terminal, with the outcome of the callback. -/
def Settled (py : Runtime) (w : World Transactions π) : Prop :=
  ∃ t, firstMatch race.response.checkoutRequestId w.transactions = some t ∧
    t.idempotencyKey = some race.idempotencyKey ∧ t.status.Terminal ∧
    t.status = targetStatus race.fields.resultCode ∧ t.resultCode = some race.fields.resultCode ∧
    t.resultDescription = some race.fields.resultDescription ∧
    t.mpesaReceiptNumber = getString py race.fields.metadata "MpesaReceiptNumber"

/-- In this world the provider accepts the payment, which is new to the stores; every delivery is an
authentic one of one callback, which is valid and agrees with the payment. -/
structure Begins (env : Env) (container : AppContainer Transactions π)
    (deliveries : List CallbackRequest) (w : World Transactions π) : Prop where
  accepted : (pushAnswer env container race.request w).1 = .ok race.response
  unpaid : keyMatch race.idempotencyKey w.transactions = none
  unmatched : firstMatch race.response.checkoutRequestId w.transactions = none
  issued : RowsIssued env w.ambient w.transactions
  checked : container.settings.callbackReplayProtectionEnabled = true
  unseen : ¬ ReplayStore.Live w.seen (race.replayKey env.toRuntime) (w.ambient.monotonic env).1
  read : readFields env.toRuntime race.payload = .ok (some race.fields)
  named : race.fields.checkoutRequestId = race.response.checkoutRequestId
  agrees : ∀ id createdAt updatedAt, race.fields.Accepts env.toRuntime
    ((saveArguments race.request race.idempotencyKey race.response).record id createdAt updatedAt)
  delivered : ∀ request ∈ deliveries,
    container.callbackRoute.Authenticated request ∧ request.payload = race.payload

/-- The step is the replay check of a delivery. -/
def Checks (py : Runtime) (settings : Settings) (st : Step (RacePool π) Nat Unit) : Prop :=
  st.before.message? st.input =
    some (.checkAndStore (race.replayKey py) settings.callbackReplayWindowSeconds)

/-- The reading of the clock a replay check makes. -/
def reading (env : Env) (st : Step (RacePool π) Nat Unit) : ℚ :=
  (st.before.state.ambient.monotonic env).1

/-- The orders of a payment and its deliveries: a delivery starts behind the provider's acceptance, and
all of them are checked within one replay window. -/
structure Ordered (env : Env) (settings : Settings) (w : World Transactions π)
    (run : List (Step (RacePool π) Nat Unit)) : Prop where
  behind : ∀ st ∈ run, st.input ≠ 0 → w.initiations.length < st.before.state.initiations.length
  within : ∀ first ∈ run, ∀ next ∈ run, race.Checks env.toRuntime settings first →
    race.Checks env.toRuntime settings next →
      reading env next < reading env first + settings.callbackReplayWindowSeconds

/-- The payment has ended, a delivery has, and every other delivery has ended or has not begun. -/
structure Finished (before after : RacePool π) : Prop where
  paid : ∃ p, after.threads[0]? = some p ∧ p.Ended
  handled : ∃ i p, i ≠ 0 ∧ after.threads[i]? = some p ∧ p.Ended
  rest : ∀ i p, i ≠ 0 → after.threads[i]? = some p → p.Ended ∨ before.threads[i]? = some p

/-- A delivery looks its transaction up before the transaction is stored. -/
def Overtakes (st : Step (RacePool π) Nat Unit) : Prop :=
  st.before.message? st.input =
      some (.transactions (.findByCheckoutRequestId race.response.checkoutRequestId)) ∧
    firstMatch race.response.checkoutRequestId st.before.state.transactions = none

end Race

/-! ## The programs of a delivery -/

/-- Messages that touch the audit log and the counters only. -/
def Msg.Bookkeeping : Msg → Prop
  | .logEvent _ => True
  | .increment _ => True
  | _ => False

/-- The route's answer for what the handler returns or raises. -/
def respond : Except Exn CallbackProcessingResult → App CallbackResponse
  | .ok result => pure (.processed result)
  | .error (.infrastructureUnavailable message) => do
    CallbackRoute.logRejection "stk_callback_infrastructure_unavailable" message
    pure (.json 503 "infrastructure_unavailable" message)
  | .error e => .raise e

/-- A delivery that has come to this point of the handler. -/
def handling (p : App CallbackProcessingResult) : App Reply :=
  .callback <$> (p.attempt >>= respond)

/-- An authenticated delivery. -/
def delivery (py : Runtime) (route : CallbackRoute) (payload : PyDict) : App Reply :=
  .callback <$> (do
    match ← route.rejectDuplicateCallbackIfNeeded py payload with
    | some response => pure response
    | none => CallbackRoute.processCallback py payload)

/-- The route catches what the handler raises and answers with it, so that the handler is one part of a
delivery. -/
theorem processCallback_eq (py : Runtime) (payload : PyDict) :
    CallbackRoute.processCallback py payload = (process py payload).attempt >>= respond := by
  unfold CallbackRoute.processCallback
  congr 1

/-- The checks in front of an authenticated delivery send nothing. -/
theorem program_postCallback {τ π : Type} {container : AppContainer τ π} {request : CallbackRequest}
    (authenticated : container.callbackRoute.Authenticated request) (py : Runtime) :
    program container py (.postCallback request) =
      delivery py container.callbackRoute request.payload := by
  have hvalid := (validateCallbackSecret_runs container.callbackRoute
    request.callbackSecret).program_of_passes authenticated.1
  have htrusted := (rejectUntrusted_runs container.callbackRoute
    request.headers).program_of_passes authenticated.2
  show Reply.callback <$> container.callbackRoute.post py request = _
  unfold CallbackRoute.post CallbackRoute.handleStkCallback
  rw [hvalid, htrusted]
  rfl

/-- The answer costs no message to a store. -/
theorem sends_respond (result : Except Exn CallbackProcessingResult) :
    (respond result).Sends Msg.Bookkeeping := by
  cases result with
  | ok result => trivial
  | error e =>
    cases e with
    | infrastructureUnavailable message =>
      exact .bind ((sends_ask _).mpr trivial) fun _ => trivial
    | _ => trivial

/-- A handler that only counts and logs goes on doing so under the route. -/
theorem sends_handling {p : App CallbackProcessingResult} (h : p.Sends Msg.Bookkeeping) :
    (handling p).Sends Msg.Bookkeeping :=
  .bind (.bind h.attempt sends_respond) fun _ => trivial

/-! ## One message of a delivery -/

section Delivery

variable {π : Type} {env : Env} {settings : Settings} {verifier : CallbackSourceVerifier}
  {provider : PaymentProvider π}

/-- Under the route, the handler takes its own steps as long as it runs. -/
theorem advance_handling {p : App CallbackProcessingResult} (running : ¬ p.Ended)
    (h : Handler Exn Msg.Answer (World Transactions π)) (w : World Transactions π) :
    (handling p).advance h w = (handling (p.advance h w).1, (p.advance h w).2) := by
  have hattempt : ¬ p.attempt.Ended := by
    cases p with
    | call m k => exact nofun
    | _ => exact absurd rfl running
  rw [handling, Prog.advance_map, Prog.advance_bind h hattempt, Prog.advance_attempt]
  rfl

/-- The handler counts the callback and reads its fields. -/
theorem advance_process {payload : PyDict} {f : CallbackFields}
    (read : readFields env.toRuntime payload = .ok (some f)) :
    ∃ callback, f.metadata = extractMetadata callback ∧ ∀ w : World Transactions π,
      (process env.toRuntime payload).advance (handle env (.inMemory settings verifier provider)) w =
        (processFields env.toRuntime callback f.checkoutRequestId f.resultCode f.resultDescription,
          { w with metrics := w.metrics.increment .callbackReceived }) := by
  obtain ⟨callback, hcallback, hid, hcode, hdesc, hmetadata⟩ := readFrom_of_readFields read
  refine ⟨callback, hmetadata, fun w => ?_⟩
  rw [process, ask, Prog.advance_send_bind]
  simp only [hcallback, hcode, hid, hdesc]
  rfl

/-- A lookup that finds nothing. -/
theorem advance_processFields_missing {callback : PyDict} {f : CallbackFields}
    {w : World Transactions π} (missing : firstMatch f.checkoutRequestId w.transactions = none) :
    (processFields env.toRuntime callback f.checkoutRequestId f.resultCode
        f.resultDescription).advance (handle env (.inMemory settings verifier provider)) w =
      (unknownTransactionResult f.checkoutRequestId, w) := by
  have hanswer : handle env (.inMemory settings verifier provider)
      (.transactions (.findByCheckoutRequestId f.checkoutRequestId)) w =
        (.ok (firstMatch f.checkoutRequestId w.transactions), w) := rfl
  rw [processFields, ask, Prog.advance_send_bind, hanswer, missing]

/-- A lookup that finds a transaction the callback agrees with. -/
theorem advance_processFields_found {callback : PyDict} {f : CallbackFields}
    (metadata : f.metadata = extractMetadata callback) {t : PendingTransaction}
    (accepts : f.Accepts env.toRuntime t) {w : World Transactions π}
    (found : firstMatch f.checkoutRequestId w.transactions = some t) :
    (processFields env.toRuntime callback f.checkoutRequestId f.resultCode
        f.resultDescription).advance (handle env (.inMemory settings verifier provider)) w =
      (applyCallback env.toRuntime f.checkoutRequestId f.resultCode f.resultDescription f.metadata,
        w) := by
  have hanswer : handle env (.inMemory settings verifier provider)
      (.transactions (.findByCheckoutRequestId f.checkoutRequestId)) w =
        (.ok (firstMatch f.checkoutRequestId w.transactions), w) := rfl
  rw [processFields_eq env.toRuntime metadata, ask, Prog.advance_send_bind, hanswer, found]
  cases checkFields_program env.toRuntime f t with
  | infinite _ refuses _ => exact absurd accepts refuses
  | reports _ refuses _ => exact absurd accepts refuses
  | applies _ program => exact congrArg (·, w) program

/-- The update of an accepted callback. -/
theorem advance_applyCallback {f : CallbackFields} {t : PendingTransaction}
    (pending : t.status = .pending) {w : World Transactions π}
    (found : firstMatch f.checkoutRequestId w.transactions = some t) :
    ∃ q w', (applyCallback env.toRuntime f.checkoutRequestId f.resultCode f.resultDescription
        f.metadata).advance (handle env (.inMemory settings verifier provider)) w = (q, w') ∧
      q.Sends Msg.Bookkeeping ∧ w'.seen = w.seen ∧
      ∃ now, w'.transactions =
        w.transactions.put ((f.update env.toRuntime).apply t (targetStatus f.resultCode) now) := by
  set u := (f.update env.toRuntime).apply t (targetStatus f.resultCode) (w.ambient.now env).1 with hu
  have hanswer : handle env (.inMemory settings verifier provider)
      (.transactions (.updateTransactionStatus (f.update env.toRuntime))) w =
        (.ok (some u), w.withStore ((w.ambient.now env).2, w.transactions.put u)) := by
    rw [handle_transactions]
    have hupdate := memory_updateAnswer env (w.ambient, w.transactions) found pending
    exact congrArg (fun r => (r.1, w.withStore r.2)) hupdate
  rw [CallbackFields.update] at hanswer
  rw [applyCallback, ask]
  dsimp only
  rw [Prog.advance_attempt_bind, hanswer]
  refine ⟨_, _, rfl, ?_, rfl, _, rfl⟩
  exact .bind (sends_lift _) fun amount => .bind ((sends_ask _).mpr trivial) fun _ => trivial

/-- The replay check, with the key free: the delivery takes the key and goes on to the handler, in one
step that no other delivery can come between. -/
theorem advance_delivery_free {payload : PyDict}
    (enabled : settings.callbackReplayProtectionEnabled = true) {w : World Transactions π}
    (free : ¬ ReplayStore.Live w.seen (buildCallbackReplayKey env.toRuntime payload)
      (w.ambient.monotonic env).1) :
    let container := AppContainer.inMemory settings verifier provider
    (delivery env.toRuntime container.callbackRoute payload).advance (handle env container) w =
      (handling (process env.toRuntime payload),
        w.claimKey env (buildCallbackReplayKey env.toRuntime payload)
          settings.callbackReplayWindowSeconds) := by
  intro container
  have henabled : container.callbackRoute.settings.callbackReplayProtectionEnabled = true := enabled
  have hanswer : handle env container (.checkAndStore (buildCallbackReplayKey env.toRuntime payload)
      container.callbackRoute.settings.callbackReplayWindowSeconds) w = _ :=
    run_checkAndStore_free env container free
  rw [delivery, Prog.advance_map, CallbackRoute.rejectDuplicateCallbackIfNeeded, if_pos henabled,
    Prog.bind_assoc, ask, Prog.advance_attempt_bind]
  rw [hanswer, processCallback_eq]
  rfl

/-- The replay check, with the key taken: the delivery is answered as a duplicate, and what it has left
to do counts and logs. -/
theorem advance_delivery_taken {payload : PyDict}
    (enabled : settings.callbackReplayProtectionEnabled = true) {w : World Transactions π}
    (taken : ReplayStore.Live w.seen (buildCallbackReplayKey env.toRuntime payload)
      (w.ambient.monotonic env).1) :
    let container := AppContainer.inMemory settings verifier provider
    ∃ q, (delivery env.toRuntime container.callbackRoute payload).advance (handle env container) w =
        (q, { w with ambient := (w.ambient.monotonic env).2 }) ∧ q.Sends Msg.Bookkeeping := by
  intro container
  have henabled : container.callbackRoute.settings.callbackReplayProtectionEnabled = true := enabled
  have hanswer : handle env container (.checkAndStore (buildCallbackReplayKey env.toRuntime payload)
      container.callbackRoute.settings.callbackReplayWindowSeconds) w = _ :=
    run_checkAndStore_live env container taken
  rw [delivery, Prog.advance_map, CallbackRoute.rejectDuplicateCallbackIfNeeded, if_pos henabled,
    Prog.bind_assoc, ask, Prog.advance_attempt_bind]
  rw [hanswer]
  refine ⟨_, rfl, trivial, fun r => ?_⟩
  cases r <;> trivial

end Delivery

/-! ## How far a race has come -/

namespace Race

/-- What is stored of the payment. -/
inductive Stage
  | unsaved
  | pending
  | settled

section Phases

variable {π : Type} (env : Env) (settings : Settings) (verifier : CallbackSourceVerifier)
  (provider : PaymentProvider π) (race : Race)

/-- The payment is stored as the stage says. -/
def At : Stage → World Transactions π → Prop
  | .unsaved, w => firstMatch race.response.checkoutRequestId w.transactions = none
  | .pending, w => ∃ t, firstMatch race.response.checkoutRequestId w.transactions = some t ∧
      t.idempotencyKey = some race.idempotencyKey ∧ race.fields.Accepts env.toRuntime t
  | .settled, w => race.Settled env.toRuntime w

/-- A delivery that has not begun. -/
def waiting : App Reply :=
  delivery env.toRuntime (AppContainer.inMemory settings verifier provider).callbackRoute race.payload

/-- A delivery between its replay check and its update. -/
inductive Active (stage : Stage) : App Reply → Prop
  | counting : Active stage (handling (process env.toRuntime race.payload))
  | looking (callback : PyDict) (metadata : race.fields.metadata = extractMetadata callback) :
    Active stage (handling (processFields env.toRuntime callback race.fields.checkoutRequestId
      race.fields.resultCode race.fields.resultDescription))
  | updating (pending : stage = .pending) :
    Active stage (handling (applyCallback env.toRuntime race.fields.checkoutRequestId
      race.fields.resultCode race.fields.resultDescription race.fields.metadata))

/-- A delivery that has not begun, or that changes nothing any more. -/
def Idle (p : App Reply) : Prop :=
  p = race.waiting env settings verifier provider ∨ p.Sends Msg.Bookkeeping

/-- The replay key was taken by a check of this run. -/
def Claimed (run : List (Step (RacePool π) Nat Unit)) (w : World Transactions π) : Prop :=
  ∃ first ∈ run, race.Checks env.toRuntime settings first ∧
    w.seen.get (race.replayKey env.toRuntime) = some (race.replayKey env.toRuntime,
      reading env first + settings.callbackReplayWindowSeconds)

/-- How far the deliveries have come: none has begun, one holds the key and is on its way, or the one
that held it is through; `early` says that a lookup overtook the save. -/
inductive Deliveries (w₀ : World Transactions π) (run : List (Step (RacePool π) Nat Unit))
    (early : Prop) (stage : Stage) (pool : RacePool π) : Prop
  | untouched
      (waiting : ∀ i p, i ≠ 0 → pool.threads[i]? = some p →
        p = race.waiting env settings verifier provider)
      (unseen : pool.state.seen = w₀.seen) (open_ : stage ≠ .settled) (late : ¬ early)
  | active (i : Nat) (p : App Reply) (delivers : i ≠ 0) (busy : pool.threads[i]? = some p)
      (active : race.Active env stage p)
      (idle : ∀ j q, j ≠ 0 → j ≠ i → pool.threads[j]? = some q →
        race.Idle env settings verifier provider q)
      (claimed : race.Claimed env settings run pool.state) (open_ : stage ≠ .settled)
      (late : ¬ early)
  | through
      (idle : ∀ i p, i ≠ 0 → pool.threads[i]? = some p → race.Idle env settings verifier provider p)
      (claimed : race.Claimed env settings run pool.state)
      (verdict : early ∧ stage ≠ .settled ∨ ¬ early ∧ stage = .settled)

/-- How far the payment has come: the provider has not answered, the answer is not saved, or the
payment only keeps its books any more. -/
inductive Phase (w₀ : World Transactions π) (run : List (Step (RacePool π) Nat Unit)) (early : Prop)
    (pool : RacePool π) : Prop
  | opening (p : App PaymentResponse)
      (paying : p = executeStkPush race.request race.idempotencyKey ∨
        p = callProvider race.request race.idempotencyKey)
      (present : pool.threads[0]? = some (.payment <$> p)) (unchanged : pool.state = w₀)
      (waiting : ∀ i p, i ≠ 0 → pool.threads[i]? = some p →
        p = race.waiting env settings verifier provider) (late : ¬ early)
  | saving
      (present : pool.threads[0]? = some
        (.payment <$> recordInitiation race.request race.idempotencyKey race.response))
      (unsaved : race.At env .unsaved pool.state)
      (deliveries : race.Deliveries env settings verifier provider w₀ run early .unsaved pool)
  | saved (p : App Reply) (present : pool.threads[0]? = some p) (closing : p.Sends Msg.Bookkeeping)
      (stage : Stage) (stored : stage ≠ .unsaved) (reached : race.At env stage pool.state)
      (deliveries : race.Deliveries env settings verifier provider w₀ run early stage pool)

end Phases

/-! ## The next message of a race -/

section Step

variable {π : Type} {env : Env} {settings : Settings} {verifier : CallbackSourceVerifier}
  {provider : PaymentProvider π} {race : Race}

/-- Keeping books changes neither the transactions nor the replay keys, so such a step is invisible to
the other deliveries. -/
theorem advance_bookkeeping {p : App Reply} (closing : p.Sends Msg.Bookkeeping)
    (w : World Transactions π) :
    let r := p.advance (handle env (.inMemory settings verifier provider)) w
    r.1.Sends Msg.Bookkeeping ∧ r.2.transactions = w.transactions ∧ r.2.seen = w.seen := by
  intro r
  obtain ⟨hnext, hstate⟩ := closing.advance (handle env (.inMemory settings verifier provider)) w
  refine ⟨hnext, ?_⟩
  rcases hstate with hsame | ⟨m, hm, hafter⟩
  · rw [show r.2 = w from hsame]
    exact ⟨rfl, rfl⟩
  · rw [show r.2 = _ from hafter]
    cases m with
    | logEvent event => exact ⟨rfl, rfl⟩
    | increment counter => exact ⟨rfl, rfl⟩
    | _ => exact absurd hm id

/-- The first message of a delivery is its replay check. -/
theorem next_waiting (checked : settings.callbackReplayProtectionEnabled = true) :
    (race.waiting env settings verifier provider).next? = some
      (.checkAndStore (race.replayKey env.toRuntime) settings.callbackReplayWindowSeconds) := by
  have henabled : (AppContainer.inMemory settings verifier
    provider).callbackRoute.settings.callbackReplayProtectionEnabled = true := checked
  rw [waiting, delivery, CallbackRoute.rejectDuplicateCallbackIfNeeded, if_pos henabled]
  rfl

/-- An idle delivery asks no repository. -/
theorem Idle.next_ne (checked : settings.callbackReplayProtectionEnabled = true) {p : App Reply}
    (idle : race.Idle env settings verifier provider p) (m : TransactionRepositoryProtocol) :
    p.next? ≠ some (.transactions m) := by
  rcases idle with rfl | closing
  · rw [next_waiting checked]
    exact nofun
  · cases p with
    | call m' k =>
      intro h
      cases h
      exact closing.1
    | _ => exact nofun

/-- While the key is taken, an idle delivery changes nothing. -/
theorem Idle.advance (checked : settings.callbackReplayProtectionEnabled = true) {p : App Reply}
    (idle : race.Idle env settings verifier provider p) {w : World Transactions π}
    (taken : p = race.waiting env settings verifier provider →
      ReplayStore.Live w.seen (race.replayKey env.toRuntime) (w.ambient.monotonic env).1) :
    let r := p.advance (handle env (.inMemory settings verifier provider)) w
    r.1.Sends Msg.Bookkeeping ∧ r.2.transactions = w.transactions ∧ r.2.seen = w.seen := by
  intro r
  rcases idle with hwaiting | closing
  · obtain ⟨q, hadvance, hclosing⟩ := @advance_delivery_taken π env settings verifier provider
      race.payload checked w (taken hwaiting)
    have hr : r = (q, { w with ambient := (w.ambient.monotonic env).2 }) := by
      rw [← hadvance, ← waiting, ← hwaiting]
    rw [hr]
    exact ⟨hclosing, rfl, rfl⟩
  · exact advance_bookkeeping closing w

/-- A stage of the race is read off the transactions alone. -/
theorem At.of_eq {stage : Stage} {w w' : World Transactions π} (h : race.At env stage w)
    (same : w'.transactions = w.transactions) : race.At env stage w' := by
  cases stage with
  | settled =>
    obtain ⟨t, ht⟩ := h
    exact ⟨t, same ▸ ht⟩
  | _ =>
    simp only [At, same]
    exact h

/-- What has been claimed is read off the replay store and the run so far. -/
theorem Claimed.of_eq {run : List (Step (RacePool π) Nat Unit)} {w w' : World Transactions π}
    (h : race.Claimed env settings run w) (same : w'.seen = w.seen) :
    race.Claimed env settings run w' := by
  obtain ⟨first, hfirst, hchecks, hget⟩ := h
  exact ⟨first, hfirst, hchecks, same ▸ hget⟩

/-- A key that was taken in this run is taken at every later check. -/
theorem Claimed.live {w₀ : World Transactions π} {run : List (Step (RacePool π) Nat Unit)}
    {pool : RacePool π} (ordered : race.Ordered env settings w₀ run)
    (h : race.Claimed env settings run pool.state) {st : Step (RacePool π) Nat Unit}
    (member : st ∈ run) (before : st.before = pool) (checks : race.Checks env.toRuntime settings st) :
    ReplayStore.Live pool.state.seen (race.replayKey env.toRuntime)
      (pool.state.ambient.monotonic env).1 := by
  obtain ⟨first, hfirst, hchecks, hget⟩ := h
  subst before
  exact ⟨_, hget, ordered.within first hfirst st member hchecks checks⟩

/-- A check that takes the key. -/
theorem claimed_claimKey {w₀ : World Transactions π} {run : List (Step (RacePool π) Nat Unit)}
    (ordered : race.Ordered env settings w₀ run) {st : Step (RacePool π) Nat Unit}
    (member : st ∈ run) (checks : race.Checks env.toRuntime settings st) :
    race.Claimed env settings run (st.before.state.claimKey env (race.replayKey env.toRuntime)
      settings.callbackReplayWindowSeconds) := by
  refine ⟨st, member, checks, Keyed.get_filter.mpr ⟨Keyed.get_put_of_eq _ rfl, decide_eq_true ?_⟩⟩
  exact ordered.within st member st member checks checks

section Delivery

variable {w₀ : World Transactions π} {run : List (Step (RacePool π) Nat Unit)} {early : Prop}
  {stage : Stage} {pool pool' : RacePool π} {i : Nat}

/-- One delivery has moved and is idle, the others are as they were. -/
theorem idle_of_others {q : App Reply} (self : pool'.threads[i]? = some q)
    (closing : q.Sends Msg.Bookkeeping)
    (others : ∀ j, j ≠ i → pool'.threads[j]? = pool.threads[j]?)
    (idle : ∀ j p, j ≠ 0 → j ≠ i → pool.threads[j]? = some p →
      race.Idle env settings verifier provider p) :
    ∀ j p, j ≠ 0 → pool'.threads[j]? = some p → race.Idle env settings verifier provider p := by
  intro j p hj hp
  by_cases hji : j = i
  · subst hji
    cases self.symm.trans hp
    exact Or.inr closing
  · exact idle j p hj hji ((others j hji).symm.trans hp)

/-- The payment has moved, and took the transaction from one stage to another that is as open. -/
theorem Deliveries.of_payment {stage' : Stage}
    (h : race.Deliveries env settings verifier provider w₀ run early stage pool)
    (open_ : stage ≠ .settled ↔ stage' ≠ .settled) (kept : stage = .pending → stage' = .pending)
    (seen : pool'.state.seen = pool.state.seen)
    (others : ∀ j, j ≠ 0 → pool'.threads[j]? = pool.threads[j]?) :
    race.Deliveries env settings verifier provider w₀ run early stage' pool' := by
  cases h with
  | untouched waiting unseen isOpen late =>
    refine .untouched (fun i p hi hp => ?_) (seen.trans unseen) (open_.mp isOpen) late
    exact waiting i p hi ((others i hi).symm.trans hp)
  | active i p delivers busy active idle claimed isOpen late =>
    refine .active i p delivers ((others i delivers).trans busy) ?_ (fun j q hj hji hq => ?_)
      (claimed.of_eq seen) (open_.mp isOpen) late
    · cases active with
      | counting => exact .counting
      | looking callback metadata => exact .looking callback metadata
      | updating pending => exact .updating (kept pending)
    · exact idle j q hj hji ((others j hj).symm.trans hq)
  | through idle claimed verdict =>
    refine .through (fun i p hi hp => ?_) (claimed.of_eq seen) ?_
    · exact idle i p hi ((others i hi).symm.trans hp)
    · rcases verdict with ⟨hearly, hopen⟩ | ⟨hlate, hsettled⟩
      · exact Or.inl ⟨hearly, open_.mp hopen⟩
      · refine Or.inr ⟨hlate, ?_⟩
        by_contra hne
        exact (open_.mpr hne) hsettled

/-- Every active delivery has a message to send. -/
theorem Active.running {p : App Reply} (active : race.Active env stage p) : ¬ p.Ended := by
  cases active with
  | counting => exact nofun
  | looking callback metadata => exact nofun
  | updating pending => exact nofun

/-- A delivery asks the replay store once, before it becomes active. -/
theorem Active.next_ne {p : App Reply} (active : race.Active env stage p) (key : String)
    (windowSeconds : Int) : p.next? ≠ some (.checkAndStore key windowSeconds) := by
  cases active with
  | counting => exact nofun
  | looking callback metadata => exact nofun
  | updating pending => exact nofun

/-- What one message of an active delivery does: it goes on, its lookup finds nothing, or its update
settles the payment. -/
inductive ActiveStep (race : Race) (env : Env) (stage : Stage) (p : App Reply)
    (w : World Transactions π) (q : App Reply) (w' : World Transactions π) : Prop
  | on (active : race.Active env stage q) (same : w'.transactions = w.transactions)
      (found : p.next? = some (.transactions
        (.findByCheckoutRequestId race.response.checkoutRequestId)) →
          firstMatch race.response.checkoutRequestId w.transactions ≠ none)
  | overtook (closing : q.Sends Msg.Bookkeeping) (same : w'.transactions = w.transactions)
      (asks : p.next? = some (.transactions
        (.findByCheckoutRequestId race.response.checkoutRequestId)))
      (missing : firstMatch race.response.checkoutRequestId w.transactions = none)
  | settled (pending : stage = .pending) (closing : q.Sends Msg.Bookkeeping)
      (reached : race.At env .settled w')
      (writes : p.next? ≠ some (.transactions
        (.findByCheckoutRequestId race.response.checkoutRequestId)))

/-- One step of the active delivery: it looks the transaction up, or updates it and so settles it, or
only counts and logs. The stage tells which of these comes next, and every other message keeps it. -/
theorem Active.advance (read : readFields env.toRuntime race.payload = .ok (some race.fields))
    (named : race.fields.checkoutRequestId = race.response.checkoutRequestId) {p : App Reply}
    (active : race.Active env stage p) (open_ : stage ≠ .settled) {w : World Transactions π}
    (reached : race.At env stage w) :
    let r := p.advance (handle env (.inMemory settings verifier provider)) w
    r.2.seen = w.seen ∧ ActiveStep race env stage p w r.1 r.2 := by
  intro r
  cases active with
  | counting =>
    obtain ⟨callback, metadata, hadvance⟩ := @advance_process π env settings verifier provider
      race.payload race.fields read
    have hr : r = (handling (processFields env.toRuntime callback race.fields.checkoutRequestId
        race.fields.resultCode race.fields.resultDescription),
          { w with metrics := w.metrics.increment .callbackReceived }) := by
      simp only [r, advance_handling (p := process env.toRuntime race.payload) nofun, hadvance]
    rw [hr]
    exact ⟨rfl, .on (.looking callback metadata) rfl nofun⟩
  | looking callback metadata =>
    have hrunning : ¬ (processFields env.toRuntime callback race.fields.checkoutRequestId
      race.fields.resultCode race.fields.resultDescription).Ended := nofun
    cases stage with
    | unsaved =>
      have hmissing : firstMatch race.fields.checkoutRequestId w.transactions = none := by
        rw [named]
        exact reached
      have hr : r = (handling (unknownTransactionResult race.fields.checkoutRequestId), w) := by
        simp only [r, advance_handling hrunning, advance_processFields_missing hmissing]
      rw [hr]
      exact ⟨rfl, .overtook (sends_handling (.bind ((sends_ask _).mpr trivial) fun _ => trivial)) rfl
        (by rw [← named]; rfl) reached⟩
    | pending =>
      obtain ⟨t, hfound, -, accepts⟩ := reached
      have hr : r = (handling (applyCallback env.toRuntime race.fields.checkoutRequestId
          race.fields.resultCode race.fields.resultDescription race.fields.metadata), w) := by
        rw [← named] at hfound
        simp only [r, advance_handling hrunning, advance_processFields_found metadata accepts hfound]
      rw [hr]
      exact ⟨rfl, .on (.updating rfl) rfl fun _ => by rw [hfound]; exact nofun⟩
    | settled => exact absurd rfl open_
  | updating pending =>
    subst pending
    obtain ⟨t, hfound, hkey, accepts⟩ := reached
    have hrunning : ¬ (applyCallback env.toRuntime race.fields.checkoutRequestId
      race.fields.resultCode race.fields.resultDescription race.fields.metadata).Ended := nofun
    rw [← named] at hfound
    obtain ⟨q, w', hadvance, hclosing, hseen, now, hput⟩ := @advance_applyCallback π env settings
      verifier provider race.fields t accepts.pending w hfound
    have hr : r = (handling q, w') := by
      simp only [r, advance_handling hrunning, hadvance]
    rw [hr]
    refine ⟨hseen, .settled rfl (sends_handling hclosing) ?_ nofun⟩
    refine ⟨(race.fields.update env.toRuntime).apply t (targetStatus race.fields.resultCode) now, ?_,
      hkey, terminal_targetStatus race.fields.resultCode, rfl, rfl, rfl, rfl⟩
    rw [hput, ← named]
    exact firstMatch_put hfound _ _ now

/-- One message of an idle delivery, once the key is taken: it finds the key taken, or goes on counting
and logging, and stays idle. -/
theorem Idle.step (ordered : race.Ordered env settings w₀ run)
    (checked : settings.callbackReplayProtectionEnabled = true) {p : App Reply}
    (present : pool.threads[i]? = some p) (idle : race.Idle env settings verifier provider p)
    (claimed : race.Claimed env settings run pool.state) :
    let container := AppContainer.inMemory settings verifier provider
    let st := stepAt (Pool.step (handle env container)) pool i
    st ∈ run → (p.advance (handle env container) pool.state).1.Sends Msg.Bookkeeping ∧
      st.after.state.transactions = pool.state.transactions ∧
      st.after.state.seen = pool.state.seen ∧ ¬ race.Overtakes st := by
  intro container st member
  have hmessage : st.before.message? st.input = p.next? := Pool.message?_of_some present
  have hstate := (Pool.step_of_some (handle env container) present rfl).1
  have hadvance := idle.advance checked fun hwaiting => by
    refine claimed.live ordered member rfl ?_
    rw [Checks, hmessage, hwaiting]
    exact next_waiting checked
  refine ⟨hadvance.1, ?_, ?_, fun h => idle.next_ne checked _ (hmessage.symm.trans h.1)⟩
  · exact (congrArg World.transactions hstate).trans hadvance.2.1
  · exact (congrArg World.seen hstate).trans hadvance.2.2

/-- What a step of a delivery leaves: the payment at a stage, and the deliveries on their way. -/
def Delivered (env : Env) (settings : Settings) (verifier : CallbackSourceVerifier)
    (provider : PaymentProvider π) (race : Race) (w₀ : World Transactions π)
    (run : List (Step (RacePool π) Nat Unit)) (early : Prop) (stage : Stage) (pool : RacePool π) :
    Prop :=
  ∃ stage', (stage' = stage ∨ stage = .pending ∧ stage' = .settled) ∧
    race.At env stage' pool.state ∧
    race.Deliveries env settings verifier provider w₀ run early stage' pool

/-- The first delivery checks its key, and takes it. From here on there is one active delivery, and the
others are idle. -/
theorem Deliveries.step_waiting (ordered : race.Ordered env settings w₀ run)
    (checked : settings.callbackReplayProtectionEnabled = true)
    (free : ¬ ReplayStore.Live pool.state.seen (race.replayKey env.toRuntime)
      (pool.state.ambient.monotonic env).1) (delivers : i ≠ 0) (reached : race.At env stage pool.state)
    (present : pool.threads[i]? = some (race.waiting env settings verifier provider))
    (waiting : ∀ i p, i ≠ 0 → pool.threads[i]? = some p →
      p = race.waiting env settings verifier provider)
    (open_ : stage ≠ .settled) (late : ¬ early) :
    let st := stepAt (Pool.step (handle env (.inMemory settings verifier provider))) pool i
    st ∈ run → Delivered env settings verifier provider race w₀ run (early ∨ race.Overtakes st) stage
      st.after := by
  intro st member
  have hmessage : st.before.message? st.input = (race.waiting env settings verifier provider).next? :=
    Pool.message?_of_some present
  have hadvance : (race.waiting env settings verifier provider).advance
      (handle env (.inMemory settings verifier provider)) pool.state = _ :=
    advance_delivery_free checked free
  obtain ⟨hstate, hself, hothers⟩ := Pool.step_of_some _ present hadvance
  have hchecks : race.Checks env.toRuntime settings st := hmessage.trans (next_waiting checked)
  have hlate : ¬ race.Overtakes st := by
    rintro ⟨hasks, -⟩
    cases hchecks.symm.trans hasks
  refine ⟨stage, Or.inl rfl, reached.of_eq ((congrArg World.transactions hstate).trans rfl), ?_⟩
  rw [or_iff_left hlate]
  refine .active i _ delivers hself .counting (fun j q hj hji hq => Or.inl ?_) ?_ open_ late
  · exact waiting j q hj ((hothers j hji).symm.trans hq)
  · exact (claimed_claimKey ordered member hchecks).of_eq (congrArg World.seen hstate)

/-- The delivery that holds the key moves: it is the only one that can reach the transaction, so the
stage of the race changes by its moves alone. -/
theorem Deliveries.step_active
    (read : readFields env.toRuntime race.payload = .ok (some race.fields))
    (named : race.fields.checkoutRequestId = race.response.checkoutRequestId) (delivers : i ≠ 0)
    (reached : race.At env stage pool.state) {p : App Reply} (busy : pool.threads[i]? = some p)
    (active : race.Active env stage p)
    (idle : ∀ j q, j ≠ 0 → j ≠ i → pool.threads[j]? = some q →
      race.Idle env settings verifier provider q)
    (claimed : race.Claimed env settings run pool.state) (open_ : stage ≠ .settled) (late : ¬ early) :
    let st := stepAt (Pool.step (handle env (.inMemory settings verifier provider))) pool i
    Delivered env settings verifier provider race w₀ run (early ∨ race.Overtakes st) stage
      st.after := by
  intro st
  have hmessage : st.before.message? st.input = p.next? := Pool.message?_of_some busy
  obtain ⟨hstate, hself, hothers⟩ :=
    Pool.step_of_some (handle env (.inMemory settings verifier provider)) busy rfl
  obtain ⟨hseen, hstep⟩ := active.advance read named open_ reached
  have hclaimed : race.Claimed env settings run st.after.state :=
    claimed.of_eq ((congrArg World.seen hstate).trans hseen)
  cases hstep with
  | on active same found =>
    have hlate : ¬ race.Overtakes st := fun h => found (hmessage.symm.trans h.1) h.2
    refine ⟨stage, Or.inl rfl, reached.of_eq ((congrArg World.transactions hstate).trans same), ?_⟩
    rw [or_iff_left hlate]
    refine .active i _ delivers hself active (fun j q hj hji hq => ?_) hclaimed open_ late
    exact idle j q hj hji ((hothers j hji).symm.trans hq)
  | overtook closing same asks missing =>
    refine ⟨stage, Or.inl rfl, reached.of_eq ((congrArg World.transactions hstate).trans same), ?_⟩
    exact .through (idle_of_others hself closing hothers idle) hclaimed
      (Or.inl ⟨Or.inr ⟨hmessage.trans asks, missing⟩, open_⟩)
  | settled pending closing settles writes =>
    have hlate : ¬ race.Overtakes st := fun h => writes (hmessage.symm.trans h.1)
    refine ⟨.settled, Or.inr ⟨pending, rfl⟩, settles.of_eq (congrArg World.transactions hstate), ?_⟩
    rw [or_iff_left hlate]
    exact .through (idle_of_others hself closing hothers idle) hclaimed (Or.inr ⟨late, rfl⟩)

/-- **One message of a delivery**: it is the first one to take the key, the one that holds it, or an
idle one; each case keeps the invariant of the pool. -/
theorem Deliveries.step (ordered : race.Ordered env settings w₀ run)
    (checked : settings.callbackReplayProtectionEnabled = true)
    (unseen : ¬ ReplayStore.Live w₀.seen (race.replayKey env.toRuntime) (w₀.ambient.monotonic env).1)
    (read : readFields env.toRuntime race.payload = .ok (some race.fields))
    (named : race.fields.checkoutRequestId = race.response.checkoutRequestId)
    (forward : w₀.ambient.Forward pool.state.ambient) (delivers : i ≠ 0)
    (reached : race.At env stage pool.state) :
    let container := AppContainer.inMemory settings verifier provider
    let st := stepAt (Pool.step (handle env container)) pool i
    st ∈ run → race.Deliveries env settings verifier provider w₀ run early stage pool →
      Delivered env settings verifier provider race w₀ run (early ∨ race.Overtakes st) stage
        st.after := by
  intro container st member deliveries
  cases hi : pool.threads[i]? with
  | none =>
    have hlate : ¬ race.Overtakes st := by
      rintro ⟨hmessage, -⟩
      cases (Pool.message?_of_none hi).symm.trans hmessage
    have hafter : st.after = pool := Pool.step_of_none _ hi
    rw [hafter, or_iff_left hlate]
    exact ⟨stage, Or.inl rfl, reached, deliveries⟩
  | some p =>
    obtain ⟨-, hself, hothers⟩ := Pool.step_of_some (handle env container) hi rfl
    cases deliveries with
    | untouched waiting hseen isOpen late =>
      obtain rfl := waiting i p delivers hi
      have hfree : ¬ ReplayStore.Live pool.state.seen (race.replayKey env.toRuntime)
          (pool.state.ambient.monotonic env).1 := by
        rw [hseen]
        exact fun h => unseen (h.earlier (env.monotonic_mono forward.monotonicReads))
      exact Deliveries.step_waiting ordered checked hfree delivers reached hi waiting isOpen late member
    | active k q _ busy active idle claimed isOpen late =>
      by_cases hik : i = k
      · subst hik
        exact Deliveries.step_active read named delivers reached busy active idle claimed isOpen late
      · obtain ⟨hclosing, hsame, hseen, hlate⟩ :=
          (idle i p delivers hik hi).step ordered checked hi claimed member
        refine ⟨stage, Or.inl rfl, reached.of_eq hsame, ?_⟩
        rw [or_iff_left hlate]
        refine .active k q ‹_› ((hothers k (Ne.symm hik)).trans busy) active
          (fun j r hj hjk hr => ?_) (claimed.of_eq hseen) isOpen late
        by_cases hji : j = i
        · subst hji
          cases hself.symm.trans hr
          exact Or.inr hclosing
        · exact idle j r hj hjk ((hothers j hji).symm.trans hr)
    | through idle claimed verdict =>
      obtain ⟨hclosing, hsame, hseen, hlate⟩ :=
        (idle i p delivers hi).step ordered checked hi claimed member
      refine ⟨stage, Or.inl rfl, reached.of_eq hsame, ?_⟩
      rw [or_iff_left hlate]
      exact .through (idle_of_others hself hclosing hothers fun j q hj _ => idle j q hj)
        (claimed.of_eq hseen) verdict

/-! ## The next message of the payment -/

/-- The save of the payment: from here on the lookup of a delivery finds it, under an id just drawn. -/
theorem advance_save {w : World Transactions π}
    (issued : RowsIssued env w.ambient w.transactions)
    (agrees : ∀ id createdAt updatedAt, race.fields.Accepts env.toRuntime
      ((saveArguments race.request race.idempotencyKey race.response).record id createdAt updatedAt))
    (unmatched : firstMatch race.response.checkoutRequestId w.transactions = none) :
    let r := (Reply.payment <$> recordInitiation race.request race.idempotencyKey
      race.response).advance (handle env (.inMemory settings verifier provider)) w
    r.1.Sends Msg.Bookkeeping ∧ r.2.seen = w.seen ∧ race.At env .pending r.2 := by
  intro r
  let args := saveArguments race.request race.idempotencyKey race.response
  obtain ⟨createdAt, updatedAt, a, hr⟩ : ∃ createdAt updatedAt a,
      let t := args.record (env.uuid4 w.ambient.uuidDraws) createdAt updatedAt
      r = (.payment <$> keepBooks t race.idempotencyKey race.response,
        w.withStore (a, w.transactions.put t)) := ⟨_, _, _, rfl⟩
  rw [hr]
  refine ⟨?_, rfl, args.record (env.uuid4 w.ambient.uuidDraws) createdAt updatedAt, ?_, rfl,
    agrees _ _ _⟩
  · exact .bind (.bind ((sends_ask _).mpr trivial) fun _ => .bind ((sends_ask _).mpr trivial) fun _ =>
      trivial) fun _ => trivial
  · unfold firstMatch InMemoryTransactionRepository.findByCheckoutRequestId at unmatched ⊢
    show List.find? _ (w.transactions.put _).values = _
    rw [Keyed.find?_put_of_none (issued.fresh (Nat.le_refl _)), unmatched]
    exact if_pos (decide_eq_true rfl)

/-- **One message of the payment**: its save is the one message that the deliveries can see, and
whether it comes before the lookup of the active delivery decides the race. -/
theorem Phase.step_payment {deliveries : List CallbackRequest}
    (begins : race.Begins env (.inMemory settings verifier provider) deliveries w₀)
    (issued : RowsIssued env pool.state.ambient pool.state.transactions)
    (phase : race.Phase env settings verifier provider w₀ run early pool) :
    let st := stepAt (Pool.step (handle env (.inMemory settings verifier provider))) pool 0
    race.Phase env settings verifier provider w₀ run early st.after ∧ ¬ race.Overtakes st := by
  intro st
  have hothers : ∀ j, j ≠ 0 → st.after.threads[j]? = pool.threads[j]? :=
    fun j hj => Pool.step_others _ hj pool
  cases phase with
  | opening p paying present unchanged waiting late =>
    have hwaiting : ∀ j q, j ≠ 0 → st.after.threads[j]? = some q →
        q = race.waiting env settings verifier provider :=
      fun j q hj hq => waiting j q hj ((hothers j hj).symm.trans hq)
    rcases paying with rfl | rfl
    · have hadvance : (Reply.payment <$> executeStkPush race.request race.idempotencyKey).advance
          (handle env (.inMemory settings verifier provider)) pool.state =
            (.payment <$> callProvider race.request race.idempotencyKey, pool.state) := by
        have hanswer : handle env (.inMemory settings verifier provider)
            (.transactions (.findByIdempotencyKey race.idempotencyKey)) pool.state =
              (.ok (keyMatch race.idempotencyKey pool.state.transactions), pool.state) := rfl
        rw [Prog.advance_map, executeStkPush_eq, ask, Prog.advance_send_bind, hanswer, unchanged,
          begins.unpaid]
      obtain ⟨hstate, hself, -⟩ := Pool.step_of_some _ present hadvance
      refine ⟨.opening _ (Or.inr rfl) hself (hstate.trans unchanged) hwaiting late, ?_⟩
      intro h
      cases (Pool.message?_of_some present).symm.trans h.1
    · have hadvance : (Reply.payment <$> callProvider race.request race.idempotencyKey).advance
          (handle env (.inMemory settings verifier provider)) pool.state =
            (.payment <$> recordInitiation race.request race.idempotencyKey race.response,
              (pushAnswer env (.inMemory settings verifier provider) race.request w₀).2) := by
        have hanswer : (handle env (.inMemory settings verifier provider)
            (.provider (.initiatePayment race.request)) w₀).1 = .ok race.response := begins.accepted
        rw [unchanged, Prog.advance_map, callProvider, ask, Prog.advance_attempt_bind, hanswer]
        rfl
      obtain ⟨hstate, hself, -⟩ := Pool.step_of_some _ present hadvance
      refine ⟨.saving hself (At.of_eq begins.unmatched ((congrArg World.transactions hstate).trans rfl))
        (.untouched hwaiting ((congrArg World.seen hstate).trans rfl) (fun h => by cases h) late), ?_⟩
      intro h
      cases (Pool.message?_of_some present).symm.trans h.1
  | saving present unsaved deliveries =>
    obtain ⟨hclosing, hseen, hpending⟩ := @advance_save π env settings verifier provider race
      pool.state issued begins.agrees unsaved
    obtain ⟨hstate, hself, -⟩ := Pool.step_of_some _ present (Prod.mk.eta).symm
    refine ⟨.saved _ hself hclosing .pending (fun h => by cases h)
      (At.of_eq hpending (congrArg World.transactions hstate))
      (deliveries.of_payment (by simp) (fun h => by cases h)
        ((congrArg World.seen hstate).trans hseen) hothers), ?_⟩
    intro h
    cases (Pool.message?_of_some present).symm.trans h.1
  | saved p present closing stage stored reached deliveries =>
    obtain ⟨hclosing, hsame, hseen⟩ := @advance_bookkeeping π env settings verifier provider p closing
      pool.state
    obtain ⟨hstate, hself, -⟩ := Pool.step_of_some _ present (Prod.mk.eta).symm
    refine ⟨.saved _ hself hclosing stage stored
      (reached.of_eq ((congrArg World.transactions hstate).trans hsame))
      (deliveries.of_payment Iff.rfl id ((congrArg World.seen hstate).trans hseen) hothers), ?_⟩
    intro h
    have hnext := (Pool.message?_of_some present).symm.trans h.1
    cases p with
    | call m k =>
      cases hnext
      exact closing.1
    | _ => cases hnext

/-- **One message of a race**, of the payment or of a delivery: each moves its own part of the phase,
and the parts meet in the save and the lookup alone. -/
theorem Phase.step {deliveries : List CallbackRequest}
    (begins : race.Begins env (.inMemory settings verifier provider) deliveries w₀)
    (ordered : race.Ordered env settings w₀ run)
    (forward : w₀.ambient.Forward pool.state.ambient)
    (issued : RowsIssued env pool.state.ambient pool.state.transactions)
    (phase : race.Phase env settings verifier provider w₀ run early pool) :
    let st := stepAt (Pool.step (handle env (.inMemory settings verifier provider))) pool i
    st ∈ run →
      race.Phase env settings verifier provider w₀ run (early ∨ race.Overtakes st) st.after := by
  intro st member
  by_cases hi : i = 0
  · subst hi
    obtain ⟨hphase, hlate⟩ := phase.step_payment begins issued
    rw [or_iff_left hlate]
    exact hphase
  · have hfirst : st.after.threads[0]? = pool.threads[0]? := Pool.step_others _ (Ne.symm hi) pool
    have hstep : ∀ {stage}, race.At env stage pool.state →
        race.Deliveries env settings verifier provider w₀ run early stage pool → _ :=
      fun reached deliveries => Deliveries.step ordered begins.checked begins.unseen begins.read
        begins.named forward hi reached member deliveries
    cases phase with
    | opening p paying present unchanged waiting late =>
      have hbehind := ordered.behind st member hi
      rw [show st.before.state = w₀ from unchanged] at hbehind
      exact absurd hbehind (Nat.lt_irrefl _)
    | saving present unsaved deliveries =>
      obtain ⟨stage', hstage, hreached, hdeliveries⟩ := hstep unsaved deliveries
      obtain rfl := hstage.resolve_right nofun
      exact .saving (hfirst.trans present) hreached hdeliveries
    | saved p present closing stage stored reached deliveries =>
      obtain ⟨stage', hstage, hreached, hdeliveries⟩ := hstep reached deliveries
      refine .saved p (hfirst.trans present) closing stage' ?_ hreached hdeliveries
      rcases hstage with rfl | ⟨-, rfl⟩
      · exact stored
      · exact nofun

end Delivery

end Step

/-! ## The theorem -/

section Theorem

variable {π : Type} {env : Env} {settings : Settings} {verifier : CallbackSourceVerifier}
  {provider : PaymentProvider π} {race : Race} {deliveries : List CallbackRequest}
  {w : World Transactions π}

/-- The deliveries of a race are all the same program. -/
theorem waiting_of_pool
    (begins : race.Begins env (.inMemory settings verifier provider) deliveries w) {i : Nat}
    {p : App Reply} (hi : i ≠ 0)
    (present : (race.pool (.inMemory settings verifier provider) env.toRuntime
      deliveries w).threads[i]? = some p) : p = race.waiting env settings verifier provider := by
  obtain ⟨j, rfl⟩ := Nat.exists_eq_succ_of_ne_zero hi
  obtain ⟨request, hrequest, rfl⟩ := List.mem_map.mp (List.mem_of_getElem? present)
  obtain ⟨hauthenticated, hpayload⟩ := begins.delivered request hrequest
  rw [program_postCallback hauthenticated, hpayload]
  rfl

/-- Where a race is finished, the outcome tells whether a lookup overtook the save. -/
theorem Phase.finished {run : List (Step (RacePool π) Nat Unit)} {early : Prop}
    {pool : RacePool π}
    (begins : race.Begins env (.inMemory settings verifier provider) deliveries w)
    (phase : race.Phase env settings verifier provider w run early pool)
    (finished : Finished (race.pool (.inMemory settings verifier provider) env.toRuntime
      deliveries w) pool) : race.Settled env.toRuntime pool.state ↔ ¬ early := by
  have hnext := @next_waiting π env settings verifier provider race begins.checked
  have hunended : ¬ (race.waiting env settings verifier provider).Ended := by
    rw [Prog.Ended, hnext]
    exact nofun
  obtain ⟨p, hp, hended⟩ := finished.paid
  cases phase with
  | opening q paying present =>
    cases hp.symm.trans present
    rcases paying with rfl | rfl <;> cases hended
  | saving present =>
    cases hp.symm.trans present
    cases hended
  | saved q present closing stage stored reached deliveries =>
    cases deliveries with
    | untouched waiting =>
      obtain ⟨i, p, hi, hp, hended⟩ := finished.handled
      rw [waiting i p hi hp] at hended
      exact absurd hended hunended
    | active i p delivers busy active =>
      rcases finished.rest i p delivers busy with hended | hsame
      · exact absurd hended active.running
      · rw [waiting_of_pool begins delivers hsame] at active
        exact absurd hnext (active.next_ne _ _)
    | through idle claimed verdict =>
      rcases verdict with ⟨hearly, hopen⟩ | ⟨hlate, rfl⟩
      · refine ⟨fun hsettled => ?_, fun hlate => absurd hearly hlate⟩
        cases stage with
        | unsaved => exact absurd rfl stored
        | settled => exact absurd rfl hopen
        | pending =>
          obtain ⟨t, hfound, -, hterminal, -⟩ := hsettled
          obtain ⟨u, hfound', -, accepts⟩ := reached
          cases hfound.symm.trans hfound'
          exact absurd accepts.pending hterminal
      · exact ⟨fun _ => hlate, fun _ => reached⟩

/-- What holds along a race: it is in some phase, the readings only move forward, and the identifiers in
the store were drawn. -/
structure Invariant (env : Env) (settings : Settings) (verifier : CallbackSourceVerifier)
    (provider : PaymentProvider π) (race : Race) (w : World Transactions π)
    (run : List (Step (RacePool π) Nat Unit)) (early : Prop) (pool : RacePool π) : Prop where
  phase : race.Phase env settings verifier provider w run early pool
  forward : w.ambient.Forward pool.state.ambient
  issued : RowsIssued env pool.state.ambient pool.state.transactions

/-- One step of one thread. A delivery that claims the key becomes the active one; one that finds it
taken ends as a duplicate; the active one moves the stage; every other step leaves the transactions and
the replay store alone. -/
theorem Invariant.step {run : List (Step (RacePool π) Nat Unit)} {early : Prop}
    {pool : RacePool π} {i : Nat}
    (begins : race.Begins env (.inMemory settings verifier provider) deliveries w)
    (ordered : race.Ordered env settings w run)
    (h : race.Invariant env settings verifier provider w run early pool) :
    let st := stepAt (Pool.step (handle env (.inMemory settings verifier provider))) pool i
    st ∈ run →
      race.Invariant env settings verifier provider w run (early ∨ race.Overtakes st) st.after := by
  intro st member
  refine ⟨h.phase.step begins ordered h.forward h.issued member, h.forward.trans ?_, ?_⟩
  · exact Pool.step_related _ (R := fun w w' : World Transactions π => w.ambient.Forward w'.ambient)
      (fun w => .refl w.ambient) (handle_forward env (.inMemory settings verifier provider)) i pool
  · refine Pool.step_related _ (R := fun w w' : World Transactions π =>
      RowsIssued env w.ambient w.transactions → RowsIssued env w'.ambient w'.transactions)
      (fun w => id) (fun m w hw => ?_) i pool h.issued
    exact (@RowStore.handle_extends _ _ env (.inMemory settings verifier provider)
      InMemoryTransactionRepository.rowStore m w hw).1

end Theorem

end Race

/-- **A callback is lost exactly where a lookup overtakes the save**: in every order of a payment and
the deliveries of its callback within one replay window. -/
theorem callback_settles_iff {π : Type} (env : Env) (settings : Settings)
    (verifier : CallbackSourceVerifier) (provider : PaymentProvider π) (race : Race)
    (deliveries : List CallbackRequest) (w : World Transactions π) (schedule : List Nat)
    (begins : race.Begins env (.inMemory settings verifier provider) deliveries w) :
    let container := AppContainer.inMemory settings verifier provider
    let before := race.pool container env.toRuntime deliveries w
    let run := trace (Pool.step (handle env container)) before schedule
    let after := final (Pool.step (handle env container)) before schedule
    race.Ordered env settings w run → Race.Finished before after →
      (race.Settled env.toRuntime after.state ↔ ∀ st ∈ run, ¬ race.Overtakes st) := by
  intro container before run after ordered finished
  have hinvariant := flagged_of (C := fun st => st ∈ run) (P := race.Overtakes)
    (I := race.Invariant env settings verifier provider w run) (s := before)
    ⟨.opening _ (Or.inl rfl) rfl rfl (fun i p => Race.waiting_of_pool begins) id,
      .refl _, begins.issued⟩
    (fun early pool i member h => h.step begins ordered member) schedule fun _ hst => hst
  rw [hinvariant.phase.finished begins finished]
  exact ⟨fun h st hst hearly => h ⟨st, hst, hearly⟩, fun h ⟨st, hst, hearly⟩ => h st hst hearly⟩

/-- Where every program has ended, a race is finished. -/
theorem Race.finished_of_all {π : Type} (before : RacePool π) {after : RacePool π}
    (ended : after.threads.all (fun p => p.next?.isNone) = true)
    (delivered : 2 ≤ after.threads.length) :
    Finished before after := by
  have hended : ∀ (i : Nat) p, after.threads[i]? = some p → p.Ended := fun i p hp =>
    Option.isNone_iff_eq_none.mp (List.all_eq_true.mp ended p (List.mem_of_getElem? hp))
  have hpresent : ∀ i < 2, ∃ p, after.threads[i]? = some p := fun i hi =>
    ⟨_, List.getElem?_eq_getElem (Nat.lt_of_lt_of_le hi delivered)⟩
  obtain ⟨p, hp⟩ := hpresent 0 (by omega)
  obtain ⟨q, hq⟩ := hpresent 1 (by omega)
  exact ⟨⟨p, hp, hended 0 p hp⟩, ⟨1, q, Nat.one_ne_zero, hq, hended 1 q hq⟩,
    fun i p _ hp => Or.inl (hended i p hp)⟩

/-! ## A push that is cancelled at once -/

/-- The callback of a cancelled push. -/
def pushCancelled : CallbackRequest :=
  cancelledCallback [("ResultDesc", .str "Request cancelled by user.")]

/-- A payment of 10 shillings that the customer cancels. -/
def cancelledPayment : Race where
  request := payTenShillings
  idempotencyKey := "key"
  response := {
    checkoutRequestId := "ws_CO_1"
    merchantRequestId := "mock_11"
    providerTransactionId := some "ws_CO_1"
    providerReference := some "mock_11"
    responseCode := "0"
    responseDescription := "Success. Request accepted for processing." }
  payload := pushCancelled.payload
  fields := ⟨"ws_CO_1", 1032, "Request cancelled by user.", []⟩

theorem cancelledPayment_begins :
    cancelledPayment.Begins .digesting (.mock {}) [pushCancelled, pushCancelled]
      (start Keyed.empty ()) where
  accepted := rfl
  unpaid := rfl
  unmatched := rfl
  issued _ ht := absurd ht List.not_mem_nil
  checked := rfl
  unseen h := by
    obtain ⟨entry, hget, -⟩ := h
    cases hget
  read := rfl
  named := rfl
  agrees id createdAt updatedAt := ⟨rfl, ⟨none, rfl⟩, nofun, nofun, nofun⟩
  delivered request hrequest := by
    simp only [List.mem_cons, List.not_mem_nil, or_false, or_self] at hrequest
    rw [hrequest]
    exact ⟨⟨trivial, _, rfl, rfl⟩, rfl⟩

/-- The clock stands still, so all checks are within one window. -/
theorem cancelledPayment_ordered {run : List (Step (RacePool Unit) Nat Unit)}
    (behind : ∀ st ∈ run, st.input ≠ 0 → 0 < st.before.state.initiations.length) :
    cancelledPayment.Ordered .digesting {} (start Keyed.empty ()) run where
  behind := behind
  within first _ next _ _ _ := by
    show (0 : ℚ) < 0 + (600 : Int)
    norm_num

/-- The first delivery comes before the save and the second one behind it: the payment stays pending. -/
theorem callback_lost :
    let before := cancelledPayment.pool (.mock {}) Env.digesting.toRuntime
      [pushCancelled, pushCancelled] (start Keyed.empty ())
    let step := Pool.step (handle .digesting (.mock {}))
    let schedule := [0, 0, 1, 1, 1, 1, 0, 0, 0, 2, 2]
    cancelledPayment.Begins .digesting (.mock {}) [pushCancelled, pushCancelled]
      (start Keyed.empty ()) ∧
    cancelledPayment.Ordered .digesting {} (start Keyed.empty ()) (trace step before schedule) ∧
    Race.Finished before (final step before schedule) ∧
    ¬ cancelledPayment.Settled Env.digesting.toRuntime (final step before schedule).state := by
  intro before step schedule
  refine ⟨cancelledPayment_begins, cancelledPayment_ordered (by decide +kernel),
    Race.finished_of_all before (by decide +kernel) (by decide +kernel), ?_⟩
  rintro ⟨t, hfound, -, hterminal, -⟩
  have hstatus : statusOf "ws_CO_1" (final step before schedule).state.transactions =
      some .pending := by decide +kernel
  rw [statusOf, show firstMatch "ws_CO_1" _ = some t from hfound] at hstatus
  exact hterminal (Option.some.inj hstatus)

/-- A delivery behind the save is the case of the two sides in which the payment is settled. -/
theorem callback_settles_iff_behind :
    let before := cancelledPayment.pool (.mock {}) Env.digesting.toRuntime
      [pushCancelled, pushCancelled] (start Keyed.empty ())
    let step := Pool.step (handle .digesting (.mock {}))
    let schedule := [0, 0, 0, 1, 1, 1, 2, 2, 1, 1, 0, 0]
    cancelledPayment.Settled Env.digesting.toRuntime (final step before schedule).state ↔
      ∀ st ∈ trace step before schedule, ¬ cancelledPayment.Overtakes st := by
  intro before step schedule
  exact callback_settles_iff .digesting {} .development MockDarajaPaymentProvider cancelledPayment
    [pushCancelled, pushCancelled] (start Keyed.empty ()) schedule cancelledPayment_begins
    (cancelledPayment_ordered (by decide +kernel))
    (Race.finished_of_all before (by decide +kernel) (by decide +kernel))

end MpesaMcp
