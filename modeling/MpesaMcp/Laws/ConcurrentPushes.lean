import MpesaMcp.Laws.ProviderDecline
import MpesaMcp.Library.Interleave

/-!
# Pushes side by side

Pushes with one idempotency key over the Postgres repository, each sending its messages in turn while
the others wait anywhere between two of theirs. A push between its lookup and its save is in flight:
the provider may have its request, and the table does not show it. `one_push_per_key` is about the
schedules in which no lookup is answered while a push is in flight.
-/

set_option autoImplicit false

namespace MpesaMcp

open Library Python PaymentService

/-! ## The pool and the property -/

/-- Pushes over one world. -/
abbrev PushPool (π : Type) := Pool Exn Msg.Answer PaymentResponse (World TransactionTable π)

/-- Requests that reach `_execute_stk_push` with one key. -/
def concurrentPushes {π : Type} (requests : List InitiatePayment) (idempotencyKey : String)
    (w : World TransactionTable π) : PushPool π where
  state := w
  threads := requests.map fun request => executeStkPush request idempotencyKey

/-- Since this world the provider received at most one push, and the pushes that have ended all
returned one transaction. -/
structure OnePush {π : Type} (w : World TransactionTable π) (pool : PushPool π) : Prop where
  once : pool.state.initiations.length ≤ w.initiations.length + 1
  same : ∃ id, ∀ (i : Nat) p, pool.threads[i]? = some p → p.Ended →
    ∃ response, p = .ret response ∧ response.transactionId = some id

/-- The provider always accepts. -/
def Accepts {π : Type} (env : Env) (provider : PaymentProvider π) : Prop :=
  ∀ request s, ∃ response, (provider.answer env (.initiatePayment request) s).1 = .ok response

/-- The push has had its lookup answered, and has not saved yet. -/
def InFlight (p : App PaymentResponse) : Prop :=
  match p.next? with
  | some (.provider (.initiatePayment _)) => True
  | some (.transactions (.savePendingTransaction _)) => True
  | _ => False

/-- The row of a save fits its columns, its identifiers are those of no stored row, and the database
answers. -/
structure Storable {π : Type} (env : Env) (w : World TransactionTable π)
    (args : SavePendingTransaction) : Prop where
  fits : ColumnsHold (savedRow env w.ambient args)
  fresh : ∀ other ∈ w.transactions.rows.values,
    other.transactionId ≠ env.uuid4 w.ambient.uuidDraws ∧
    other.checkoutRequestId ≠ args.checkoutRequestId ∧
    ∀ id ∈ args.providerTransactionId, other.providerTransactionId ≠ some id
  written : env.databaseFails w.ambient.statements = false
  read : env.databaseFails (w.ambient.statements + 1) = false

/-- What is asked of a step: a lookup is answered, while no push is in flight, and a save can be
stored. -/
structure Orderly {π : Type} (env : Env) (idempotencyKey : String)
    (st : Step (PushPool π) Nat Unit) : Prop where
  answered : st.before.message? st.input = some (.transactions (.findByIdempotencyKey idempotencyKey)) →
    env.databaseFails st.before.state.ambient.statements = false
  alone : st.before.message? st.input = some (.transactions (.findByIdempotencyKey idempotencyKey)) →
    ∀ (j : Nat) p, st.before.threads[j]? = some p → ¬ InFlight p
  storable : ∀ args,
    st.before.message? st.input = some (.transactions (.savePendingTransaction args)) →
    Storable env st.before.state args

/-! ## One push, message by message -/

/-- The provider call of a push, and what follows it. -/
def callProvider (request : InitiatePayment) (idempotencyKey : String) : App PaymentResponse := do
  match ← (ask (.provider (.initiatePayment request))).attempt with
  | .error e =>
    ask (.increment .failedPayment)
    pure (providerFailure e)
  | .ok response => recordInitiation request idempotencyKey response

theorem executeStkPush_eq (request : InitiatePayment) (idempotencyKey : String) :
    executeStkPush request idempotencyKey = (do
      match ← ask (.transactions (.findByIdempotencyKey idempotencyKey)) with
      | some existingTransaction => pure (responseFromExistingTransaction existingTransaction)
      | none => callProvider request idempotencyKey) := rfl

/-- A push sends at most five messages. -/
theorem executeStkPush_within (request : InitiatePayment) (idempotencyKey : String) :
    (executeStkPush request idempotencyKey).Within 5 := by
  rw [executeStkPush_eq]
  refine .send_bind _ fun found => ?_
  cases found with
  | some t => trivial
  | none =>
    refine .attempt_bind _ fun answer => ?_
    cases answer with
    | error e => exact .send_bind _ fun _ => trivial
    | ok response =>
      exact .send_bind _ fun _ => .send_bind _ fun _ => .send_bind _ fun _ => trivial

/-- A push that has not begun. -/
def Waiting (idempotencyKey : String) (p : App PaymentResponse) : Prop :=
  ∃ request, p = executeStkPush request idempotencyKey

/-- The push returns this transaction once its bookkeeping is done. -/
inductive Returning (id : String) : App PaymentResponse → Prop
  | done (response : PaymentResponse) (names : response.transactionId = some id) :
    Returning id (.ret response)
  | logs (event : AuditEvent) (k : Except Exn Unit → App PaymentResponse)
      (next : Returning id (k (.ok ()))) : Returning id (.call (.logEvent event) k)
  | counts (counter : Counter) (k : Except Exn Unit → App PaymentResponse)
      (next : Returning id (k (.ok ()))) : Returning id (.call (.increment counter) k)

/-- The bookkeeping behind a save. -/
def keepBooks (transaction : PendingTransaction) (idempotencyKey : String)
    (response : PaymentInitiationResponse) : App PaymentResponse := do
  logSuccess transaction response
  ask (.increment .successfulPayment)
  pure (initiated transaction idempotencyKey response)

theorem returning_keepBooks (t : PendingTransaction) (idempotencyKey : String)
    (response : PaymentInitiationResponse) :
    Returning t.transactionId (keepBooks t idempotencyKey response) :=
  .logs _ _ (.counts _ _ (.done (initiated t idempotencyKey response) rfl))

section Push

variable {π : Type} {env : Env} {settings : Settings} {verifier : CallbackSourceVerifier}
  {provider : PaymentProvider π}

/-- The lookup of a push: the stored transaction ends it, otherwise it goes on to the provider. What it
found may be out of date by then, which is what the race is about. -/
theorem advance_lookup (request : InitiatePayment) (idempotencyKey : String)
    {w : World TransactionTable π} (answered : env.databaseFails w.ambient.statements = false) :
    ∃ w', (executeStkPush request idempotencyKey).advance
        (handle env (.postgres settings verifier provider)) w =
          (match keyMatch idempotencyKey w.transactions.rows with
            | some t => .ret (responseFromExistingTransaction t)
            | none => callProvider request idempotencyKey, w') ∧
      w'.transactions = w.transactions ∧ w'.initiations = w.initiations := by
  have hanswer : handle env (.postgres settings verifier provider)
      (.transactions (.findByIdempotencyKey idempotencyKey)) w =
        (.ok (keyMatch idempotencyKey w.transactions.rows),
          w.withStore (w.ambient.after 1, w.transactions)) := by
    rw [handle_transactions]
    have hfind := postgres_findKey env w.ambient w.transactions idempotencyKey
    rw [if_neg (by rw [answered]; exact Bool.false_ne_true)] at hfind
    exact congrArg (fun r => (r.1, w.withStore r.2)) hfind
  refine ⟨w.withStore (w.ambient.after 1, w.transactions), ?_, rfl, rfl⟩
  rw [executeStkPush_eq, ask, Prog.advance_send_bind, hanswer]
  cases keyMatch idempotencyKey w.transactions.rows <;> rfl

/-- The provider call of a push. -/
theorem advance_callProvider (accepts : Accepts env provider) (request : InitiatePayment)
    (idempotencyKey : String) (w : World TransactionTable π) :
    ∃ response w', (callProvider request idempotencyKey).advance
        (handle env (.postgres settings verifier provider)) w =
          (recordInitiation request idempotencyKey response, w') ∧
      w'.transactions = w.transactions ∧ w'.initiations.length = w.initiations.length + 1 := by
  obtain ⟨response, hresponse⟩ := accepts request (w.ambient, w.provider)
  have hanswer : (handle env (.postgres settings verifier provider)
      (.provider (.initiatePayment request)) w).1 = .ok response := hresponse
  refine ⟨response, (handle env (.postgres settings verifier provider)
    (.provider (.initiatePayment request)) w).2, ?_, rfl, List.length_append⟩
  rw [callProvider, ask, Prog.advance_attempt_bind, hanswer]

/-- The save of a push: its row becomes the one that the key finds, or the row of another push is there
before it and the repository answers as it does. -/
theorem advance_recordInitiation {request : InitiatePayment} {idempotencyKey : String}
    {response : PaymentInitiationResponse} {w : World TransactionTable π}
    (free : ¬ HasKey idempotencyKey w.transactions.rows)
    (storable : Storable env w (saveArguments request idempotencyKey response)) :
    ∃ p t w', (recordInitiation request idempotencyKey response).advance
        (handle env (.postgres settings verifier provider)) w = (p, w') ∧
      Returning t.transactionId p ∧ keyMatch idempotencyKey w'.transactions.rows = some t ∧
      w'.initiations = w.initiations := by
  have hinsertable : Insertable env w.transactions w.ambient.statements
      (savedRow env w.ambient (saveArguments request idempotencyKey response)) := by
    refine ⟨storable.written, storable.fits, fun other hother hconflict => ?_⟩
    obtain ⟨hid, hcheckout, hprovider⟩ := storable.fresh other hother
    rcases hconflict with h | h | ⟨-, h⟩ | ⟨hsome, h⟩
    · exact hid h
    · exact hcheckout h
    · exact free ⟨other, hother, h⟩
    · obtain ⟨id, hid⟩ := Option.isSome_iff_exists.mp hsome
      exact hprovider id (h.symm.trans hid) hid
  have hnone : w.transactions.rows.get (env.uuid4 w.ambient.uuidDraws) = none :=
    Keyed.get_eq_none_iff.mpr fun other hother => (storable.fresh other hother).1
  have hcase := (postgres_save env w.ambient w.transactions
    (saveArguments request idempotencyKey response)).2
  cases hsave : PostgresTransactionRepository.answer env (.savePendingTransaction
      (saveArguments request idempotencyKey response)) (w.ambient, w.transactions) with
  | mk output s =>
  rw [hsave] at hcase
  have hanswer : handle env (.postgres settings verifier provider) (.transactions
      (.savePendingTransaction (saveArguments request idempotencyKey response))) w =
        (output, w.withStore s) := by
    rw [handle_transactions]
    exact congrArg (fun r => (r.1, w.withStore r.2)) hsave
  cases hcase with
  | refused e _ _ cause => exact absurd hinsertable cause
  | unread _ _ lost => cases lost.symm.trans storable.read
  | saved _ put _ answer =>
    refine ⟨keepBooks _ idempotencyKey response,
      savedRow env w.ambient (saveArguments request idempotencyKey response), w.withStore s, ?_,
      returning_keepBooks _ idempotencyKey response, ?_, rfl⟩
    · rw [recordInitiation, ask, Prog.advance_send_bind, hanswer, answer]
      rfl
    · show keyMatch idempotencyKey s.2.rows = _
      have hfree := keyMatch_eq_none.mpr free
      unfold keyMatch InMemoryTransactionRepository.findByIdempotencyKey at hfree ⊢
      rw [put, Keyed.find?_put_of_none hnone, hfree]
      exact if_pos (decide_eq_true rfl)

/-- Bookkeeping changes neither the table nor what the provider received. -/
theorem Returning.advance {id : String} {p : App PaymentResponse} (h : Returning id p)
    (w : World TransactionTable π) :
    let r := p.advance (handle env (.postgres settings verifier provider)) w
    Returning id r.1 ∧ r.2.transactions = w.transactions ∧ r.2.initiations = w.initiations := by
  cases h with
  | done response names => exact ⟨.done response names, rfl, rfl⟩
  | logs event k next => exact ⟨next, rfl, rfl⟩
  | counts counter k next => exact ⟨next, rfl, rfl⟩

/-- Once the key is recorded, every message leaves a push returning the recorded transaction, so what
comes after adds nothing. -/
theorem advance_recorded {idempotencyKey : String} {t : PendingTransaction}
    {w : World TransactionTable π} (found : keyMatch idempotencyKey w.transactions.rows = some t)
    {p : App PaymentResponse} (h : Waiting idempotencyKey p ∨ Returning t.transactionId p)
    (answered : Waiting idempotencyKey p → env.databaseFails w.ambient.statements = false) :
    ∃ q w', p.advance (handle env (.postgres settings verifier provider)) w = (q, w') ∧
      Returning t.transactionId q ∧ w'.transactions = w.transactions ∧
      w'.initiations = w.initiations := by
  rcases h with hwaiting | hreturning
  · have hanswered := answered hwaiting
    obtain ⟨request, rfl⟩ := hwaiting
    obtain ⟨w', hadvance, hsame⟩ := advance_lookup request idempotencyKey hanswered
    rw [found] at hadvance
    exact ⟨_, w', hadvance, .done (responseFromExistingTransaction t) rfl, hsame⟩
  · exact ⟨_, _, rfl, hreturning.advance w⟩

end Push

/-! ## The phases of a pool -/

/-- Every push but the `i`-th has not begun. -/
def OthersWait {π : Type} (idempotencyKey : String) (i : Nat) (pool : PushPool π) : Prop :=
  ∀ j p, j ≠ i → pool.threads[j]? = some p → Waiting idempotencyKey p

/-- How far the pushes of a pool have come: nobody has begun, one is in flight alone, or the key is
recorded. -/
inductive Phase {π : Type} (idempotencyKey : String) (sent : Nat) (pool : PushPool π) : Prop
  | idle (free : ¬ HasKey idempotencyKey pool.state.transactions.rows)
      (unsent : pool.state.initiations.length = sent)
      (waiting : ∀ (i : Nat) p, pool.threads[i]? = some p → Waiting idempotencyKey p)
  | calling (i : Nat) (request : InitiatePayment)
      (free : ¬ HasKey idempotencyKey pool.state.transactions.rows)
      (unsent : pool.state.initiations.length = sent)
      (busy : pool.threads[i]? = some (callProvider request idempotencyKey))
      (waiting : OthersWait idempotencyKey i pool)
  | saving (i : Nat) (request : InitiatePayment) (response : PaymentInitiationResponse)
      (free : ¬ HasKey idempotencyKey pool.state.transactions.rows)
      (once : pool.state.initiations.length = sent + 1)
      (busy : pool.threads[i]? = some (recordInitiation request idempotencyKey response))
      (waiting : OthersWait idempotencyKey i pool)
  | recorded (t : PendingTransaction)
      (found : keyMatch idempotencyKey pool.state.transactions.rows = some t)
      (once : pool.state.initiations.length ≤ sent + 1)
      (rest : ∀ (i : Nat) p, pool.threads[i]? = some p →
        Waiting idempotencyKey p ∨ Returning t.transactionId p)

theorem Waiting.not_ended {idempotencyKey : String} {p : App PaymentResponse}
    (h : Waiting idempotencyKey p) : ¬ p.Ended := by
  obtain ⟨request, rfl⟩ := h
  exact nofun

theorem Returning.response {id : String} {p : App PaymentResponse} (h : Returning id p)
    (ended : p.Ended) : ∃ response, p = .ret response ∧ response.transactionId = some id := by
  cases h with
  | done response names => exact ⟨response, rfl, names⟩
  | logs event k next => cases ended
  | counts counter k next => cases ended

section Phases

variable {π : Type} {env : Env} {settings : Settings} {verifier : CallbackSourceVerifier}
  {provider : PaymentProvider π} {idempotencyKey : String} {sent : Nat} {pool : PushPool π}

/-- The next message of a push that has not begun is its lookup. -/
theorem Waiting.message {i : Nat} {p : App PaymentResponse} (h : Waiting idempotencyKey p)
    (present : pool.threads[i]? = some p) :
    pool.message? i = some (.transactions (.findByIdempotencyKey idempotencyKey)) := by
  obtain ⟨request, rfl⟩ := h
  exact Pool.message?_of_some present

/-- While a push is in flight, no other one is answered. -/
theorem OthersWait.eq_of_orderly {h : Handler Exn Msg.Answer (World TransactionTable π)} {i k : Nat}
    {p q : App PaymentResponse} (waiting : OthersWait idempotencyKey k pool)
    (busy : pool.threads[k]? = some q) (flying : InFlight q)
    (orderly : Orderly env idempotencyKey (stepAt (Pool.step h) pool i))
    (present : pool.threads[i]? = some p) : i = k := by
  by_contra hne
  exact orderly.alone ((waiting i p hne present).message present) k q busy flying

/-- Where the others wait, they still do after one of them has moved. -/
theorem OthersWait.of_eq {i : Nat} {pool' : PushPool π} (waiting : OthersWait idempotencyKey i pool)
    (others : ∀ j, j ≠ i → pool'.threads[j]? = pool.threads[j]?) :
    OthersWait idempotencyKey i pool' := by
  intro j p hj hp
  exact waiting j p hj ((others j hj).symm.trans hp)

/-- **One message of a schedule** keeps the pool in a phase: before the save every push is on its way
with the key free, and after it every push returns what was recorded. -/
theorem Phase.step (accepts : Accepts env provider) {i : Nat}
    (phase : Phase idempotencyKey sent pool)
    (orderly : Orderly env idempotencyKey
      (stepAt (Pool.step (handle env (.postgres settings verifier provider))) pool i)) :
    Phase idempotencyKey sent
      (Pool.step (handle env (.postgres settings verifier provider)) i pool).2 := by
  cases hi : pool.threads[i]? with
  | none =>
    rw [Pool.step_of_none _ hi]
    exact phase
  | some p =>
  cases phase with
  | idle free unsent waiting =>
    have hanswered : env.databaseFails pool.state.ambient.statements = false :=
      orderly.answered ((waiting i p hi).message hi)
    obtain ⟨request, rfl⟩ := waiting i p hi
    obtain ⟨w', hadvance, htransactions, hinitiations⟩ :=
      advance_lookup request idempotencyKey hanswered
    rw [keyMatch_eq_none.mpr free] at hadvance
    obtain ⟨hstate, hself, hothers⟩ := Pool.step_of_some _ hi hadvance
    refine .calling i request ?_ ?_ hself ?_
    · rw [hstate, htransactions]
      exact free
    · rw [hstate, hinitiations]
      exact unsent
    · exact OthersWait.of_eq (fun j p _ => waiting j p) hothers
  | calling k request free unsent busy waiting =>
    cases waiting.eq_of_orderly busy trivial orderly hi
    cases hi.symm.trans busy
    obtain ⟨response, w', hadvance, htransactions, hinitiations⟩ :=
      advance_callProvider accepts request idempotencyKey pool.state
    obtain ⟨hstate, hself, hothers⟩ := Pool.step_of_some _ hi hadvance
    refine .saving i request response ?_ ?_ hself (waiting.of_eq hothers)
    · rw [hstate, htransactions]
      exact free
    · rw [hstate, hinitiations, unsent]
  | saving k request response free once busy waiting =>
    cases waiting.eq_of_orderly busy trivial orderly hi
    cases hi.symm.trans busy
    have hstorable : Storable env pool.state (saveArguments request idempotencyKey response) :=
      orderly.storable _ (Pool.message?_of_some hi)
    obtain ⟨q, t, w', hadvance, hreturning, hfound, hinitiations⟩ :=
      advance_recordInitiation free hstorable
    obtain ⟨hstate, hself, hothers⟩ := Pool.step_of_some _ hi hadvance
    refine .recorded t ?_ ?_ fun j p hp => ?_
    · rw [hstate]
      exact hfound
    · rw [hstate, hinitiations, once]
    · by_cases hj : j = i
      · subst hj
        cases hself.symm.trans hp
        exact Or.inr hreturning
      · exact Or.inl (waiting.of_eq hothers j p hj hp)
  | recorded t found once rest =>
    obtain ⟨q, w', hadvance, hreturning, htransactions, hinitiations⟩ :=
      advance_recorded found (rest i p hi) fun hwaiting => orderly.answered (hwaiting.message hi)
    obtain ⟨hstate, hself, hothers⟩ := Pool.step_of_some _ hi hadvance
    refine .recorded t ?_ ?_ fun j p hp => ?_
    · rw [hstate, htransactions]
      exact found
    · rw [hstate, hinitiations]
      exact once
    · by_cases hj : j = i
      · subst hj
        cases hself.symm.trans hp
        exact Or.inr hreturning
      · exact rest j p ((hothers j hj).symm.trans hp)

/-- In every phase the provider received at most one push, and whoever has ended returned the recorded
transaction. -/
theorem Phase.onePush {w : World TransactionTable π}
    (phase : Phase idempotencyKey w.initiations.length pool) : OnePush w pool := by
  have alone : ∀ {k : Nat} {q : App PaymentResponse}, pool.threads[k]? = some q → ¬ q.Ended →
      OthersWait idempotencyKey k pool → ∀ (i : Nat) p, pool.threads[i]? = some p → ¬ p.Ended := by
    intro k q busy hq waiting i p hi
    by_cases hik : i = k
    · subst hik
      cases busy.symm.trans hi
      exact hq
    · exact (waiting i p hik hi).not_ended
  cases phase with
  | idle _ unsent waiting =>
    exact ⟨by omega, "", fun i p hi hended => absurd hended (waiting i p hi).not_ended⟩
  | calling k request _ unsent busy waiting =>
    exact ⟨by omega, "", fun i p hi hended => absurd hended (alone busy nofun waiting i p hi)⟩
  | saving k request response _ once busy waiting =>
    exact ⟨by omega, "", fun i p hi hended => absurd hended (alone busy nofun waiting i p hi)⟩
  | recorded t _ once rest =>
    refine ⟨once, t.transactionId, fun i p hi hended => ?_⟩
    rcases rest i p hi with hwaiting | hreturning
    · exact absurd hended hwaiting.not_ended
    · exact hreturning.response hended

/-- Before its first message a pool is in a phase, whatever the table holds. -/
theorem phase_concurrentPushes (requests : List InitiatePayment) (idempotencyKey : String)
    (w : World TransactionTable π) :
    Phase idempotencyKey w.initiations.length (concurrentPushes requests idempotencyKey w) := by
  have hwaiting : ∀ (i : Nat) p, (concurrentPushes requests idempotencyKey w).threads[i]? = some p →
      Waiting idempotencyKey p := by
    intro i p hi
    obtain ⟨request, -, rfl⟩ := List.mem_map.mp (List.mem_of_getElem? hi)
    exact ⟨request, rfl⟩
  cases hfound : keyMatch idempotencyKey w.transactions.rows with
  | none => exact .idle (keyMatch_eq_none.mp hfound) rfl hwaiting
  | some t => exact .recorded t hfound (Nat.le_succ _) fun i p hi => Or.inl (hwaiting i p hi)

/-- **One push for one key**: along every schedule that answers no lookup while a push is in flight,
the provider receives at most one push, and every push that ends returns the same transaction; a push
whose five messages are answered has ended. -/
theorem one_push_per_key (accepts : Accepts env provider) (requests : List InitiatePayment)
    (idempotencyKey : String) (w : World TransactionTable π) (schedule : List Nat) :
    let step := Pool.step (handle env (.postgres settings verifier provider))
    let pool := concurrentPushes requests idempotencyKey w
    (∀ st ∈ trace step pool schedule, Orderly env idempotencyKey st) →
    OnePush w (final step pool schedule) ∧
      ∀ i < requests.length, 5 ≤ schedule.count i →
        ∃ p, (final step pool schedule).threads[i]? = some p ∧ p.Ended := by
  intro step pool orderly
  constructor
  · have hphase : Phase idempotencyKey w.initiations.length (final step pool schedule) :=
      invariant_of (I := fun _ v => Phase idempotencyKey w.initiations.length v)
        (phase_concurrentPushes requests idempotencyKey w)
        (fun _ v i hi hv => Phase.step accepts hv hi) schedule orderly
    exact hphase.onePush
  · intro i hi often
    have hpresent : pool.threads[i]? = some (executeStkPush requests[i] idempotencyKey) := by
      show (requests.map _)[i]? = _
      rw [List.getElem?_map, List.getElem?_eq_getElem hi]
      rfl
    exact Pool.final_ended _ hpresent (executeStkPush_within _ _) often

end Phases

/-! ## Two requests -/

/-- The pushes of two requests for 10 shillings with one key, over an empty table. -/
def twoPushes : PushPool Unit :=
  concurrentPushes [payTenShillings, payTenShillings] "key" (start TransactionTable.empty ())

/-- Two pushes whose lookups are both answered before either saves are both sent. -/
theorem pushed_twice :
    let container := AppContainer.postgres {} .development MockDarajaPaymentProvider
    let pool := final (Pool.step (handle .still container)) twoPushes [0, 1, 0, 1]
    Accepts .still MockDarajaPaymentProvider ∧ pool.state.initiations.length = 2 ∧
      ¬ OnePush (start TransactionTable.empty ()) pool := by
  intro container pool
  have htwice : pool.state.initiations.length = 2 := by decide +kernel
  exact ⟨fun _ _ => ⟨_, rfl⟩, htwice, fun h => absurd h.once (by rw [htwice]; decide)⟩

/-- Two pushes, the second of which begins when the first one has saved, are sent once. -/
theorem pushed_once :
    let container := AppContainer.postgres {} .development MockDarajaPaymentProvider
    OnePush (start TransactionTable.empty ())
      (final (Pool.step (handle .still container)) twoPushes [0, 0, 0, 1]) := by
  refine (one_push_per_key (fun _ _ => ⟨_, rfl⟩) [payTenShillings, payTenShillings] "key"
    (start TransactionTable.empty ()) [0, 0, 0, 1] ?_).1
  intro st hst
  rcases List.mem_cons.mp hst with rfl | hst
  · refine ⟨fun _ => rfl, fun _ j p hp => ?_, nofun⟩
    obtain ⟨request, -, rfl⟩ := List.mem_map.mp (List.mem_of_getElem? hp)
    exact id
  rcases List.mem_cons.mp hst with rfl | hst
  · exact ⟨nofun, nofun, nofun⟩
  rcases List.mem_cons.mp hst with rfl | hst
  · refine ⟨nofun, nofun, fun args h => ?_⟩
    cases h
    exact ⟨by decide +kernel, fun other h => absurd h List.not_mem_nil, rfl, rfl⟩
  · cases List.mem_singleton.mp hst
    refine ⟨fun _ => rfl, fun _ j p hp => ?_, nofun⟩
    rcases j with _ | _ | j
    · cases hp
      exact id
    · cases hp
      exact id
    · cases hp

end MpesaMcp
