import MpesaMcp.Laws.CallbackAcceptance
import MpesaMcp.Laws.TransactionLifecycle

/-!
# Whether replay protection changes what callbacks do

The same deliveries are run with replay protection and without it. The replay key is stored before the
handler has looked at the payload, so a callback that the handler refuses can shadow a later one with
the same key. In runs in which the handler applies every callback whose id names a pending transaction
the two final stores agree up to `updated_at` (`replay_transparent`).

The invariant of the simulation is that every key in the replay store belongs to a callback whose
transaction is not pending any more (`Spent`).
-/

set_option autoImplicit false

namespace MpesaMcp

open Library Python StkCallbackHandler

/-! ## The property -/

/-- The settings with replay protection switched on or off. -/
def Settings.replayProtection (settings : Settings) (enabled : Bool) : Settings :=
  { settings with callbackReplayProtectionEnabled := enabled }

/-- The same record, but for the time of its last update. -/
def SameButUpdatedAt (t u : PendingTransaction) : Prop :=
  ∃ updatedAt, u = { t with updatedAt := updatedAt }

/-- The `CheckoutRequestID` the replay key of a payload is built from. -/
def replayCheckoutRequestId (py : Runtime) (payload : PyDict) : String :=
  stringOrEmpty py (lookup (extractReplayCallback payload) "CheckoutRequestID")

/-- An authenticated callback whose id names a pending transaction is one the handler applies. -/
def AppliesPending {π : Type} (py : Runtime) (route : CallbackRoute)
    (st : AppStep Transactions π) : Prop :=
  ∀ request, st.input = .postCallback request → route.Authenticated request →
    ∀ t, firstMatch (replayCheckoutRequestId py request.payload) st.before.transactions = some t →
      t.status = .pending → ∃ f, readFields py request.payload = .ok (some f) ∧
        f.checkoutRequestId = replayCheckoutRequestId py request.payload ∧ f.Accepts py t

/-- A later authenticated delivery has the replay key of this one, and finds it taken. -/
def Repeats {π : Type} (env : Env) (container : AppContainer Transactions π)
    (st next : AppStep Transactions π) : Prop :=
  ∃ p q, st.input = .postCallback p ∧ next.input = .postCallback q ∧
    container.callbackRoute.Authenticated q ∧
    buildCallbackReplayKey env.toRuntime q.payload = buildCallbackReplayKey env.toRuntime p.payload ∧
    next.before.Taken env container q.payload

/-- No callback that is refused although its id names a pending transaction is repeated while its
replay key is taken. -/
def ShadowFree {π : Type} (env : Env) (container : AppContainer Transactions π)
    (run : List (AppStep Transactions π)) : Prop :=
  ∀ history st later, run = history ++ st :: later →
    AppliesPending env.toRuntime container.callbackRoute st ∨
      ∀ next ∈ later, ¬ Repeats env container st next

/-- A run in which no transaction shadows another has none in its rest. -/
theorem ShadowFree.tail {π : Type} {env : Env} {container : AppContainer Transactions π}
    {st : AppStep Transactions π} {later : List (AppStep Transactions π)}
    (h : ShadowFree env container (st :: later)) : ShadowFree env container later :=
  fun history st' later' hrun => h (st :: history) st' later' (by rw [hrun]; rfl)

/-- No two of these payloads have fingerprints that differ and digests that agree. -/
def NoCollision (py : Runtime) (requests : List CallbackRequest) : Prop :=
  ∀ p ∈ requests, ∀ q ∈ requests,
    py.sha256Hexdigest (dumps (replayFingerprint py p.payload)) =
      py.sha256Hexdigest (dumps (replayFingerprint py q.payload)) →
    dumps (replayFingerprint py p.payload) = dumps (replayFingerprint py q.payload)

/-! ## The fields of a replay key -/

/-- A text that `_get_string` returns is also what `_string_or_empty` makes of the value. -/
theorem stringOrEmpty_of_getString {py : Runtime} {source : PyDict} {key text : String}
    (h : getString py source key = some text) : stringOrEmpty py (lookup source key) = text := by
  unfold getString at h
  generalize lookup source key = v at h
  cases v with
  | none => cases h
  | _ => exact Option.some.inj h

/-- Where the handler reads an id, the replay key is built from the same one. -/
theorem replayCheckoutRequestId_of_readFields {py : Runtime} {payload : PyDict} {f : CallbackFields}
    (read : readFields py payload = .ok (some f)) :
    replayCheckoutRequestId py payload = f.checkoutRequestId := by
  obtain ⟨callback, hcallback, hid, -, -, -⟩ := readFrom_of_readFields read
  simp only [replayCheckoutRequestId, extractReplayCallback, hcallback]
  exact stringOrEmpty_of_getString hid

/-- The fingerprint has three members, always in the same order, so equal digests mean equal members. -/
theorem replayFingerprint_keys (py : Runtime) (payload : PyDict) :
    (replayFingerprint py payload).map Prod.fst =
      ["CheckoutRequestID", "MpesaReceiptNumber", "ResultCode"] := by
  simp only [replayFingerprint, List.map_cons, List.map_nil]

/-- Payloads with the same replay key carry the same id. -/
theorem replayCheckoutRequestId_of_key_eq {py : Runtime} {requests : List CallbackRequest}
    (sound : NoCollision py requests) {p q : CallbackRequest} (hp : p ∈ requests)
    (hq : q ∈ requests)
    (h : buildCallbackReplayKey py p.payload = buildCallbackReplayKey py q.payload) :
    replayCheckoutRequestId py p.payload = replayCheckoutRequestId py q.payload := by
  have hdigest : py.sha256Hexdigest (dumps (replayFingerprint py p.payload)) =
      py.sha256Hexdigest (dumps (replayFingerprint py q.payload)) := by
    exact (String.append_right_inj _).mp h
  have hkeys := (replayFingerprint_keys py p.payload).trans
    (replayFingerprint_keys py q.payload).symm
  have hprint := dumps_values_injective hkeys (sound p hp q hq hdigest)
  simp only [replayFingerprint, List.cons.injEq, Prod.mk.injEq, true_and] at hprint
  exact hprint.1

/-! ## Two stores that agree -/

namespace SameButUpdatedAt

theorem refl (t : PendingTransaction) : SameButUpdatedAt t t := ⟨t.updatedAt, rfl⟩

/-- Transactions that differ in the time of their last update have one id. -/
theorem transactionId {t u : PendingTransaction} (h : SameButUpdatedAt t u) :
    t.transactionId = u.transactionId := by
  obtain ⟨updatedAt, rfl⟩ := h
  rfl

/-- They have one status. -/
theorem status {t u : PendingTransaction} (h : SameButUpdatedAt t u) : t.status = u.status := by
  obtain ⟨updatedAt, rfl⟩ := h
  rfl

/-- The handler does not look at the time of the last update. -/
theorem accepts_iff {py : Runtime} {f : CallbackFields} {t u : PendingTransaction}
    (h : SameButUpdatedAt t u) : f.Accepts py t ↔ f.Accepts py u := by
  obtain ⟨updatedAt, rfl⟩ := h
  exact ⟨fun h => ⟨h.pending, h.finite, h.complete, h.amount, h.phone⟩,
    fun h => ⟨h.pending, h.finite, h.complete, h.amount, h.phone⟩⟩

/-- The same update keeps them alike, whenever it is made. -/
theorem apply {t u : PendingTransaction} (h : SameButUpdatedAt t u) (args : UpdateTransactionStatus)
    (status : TransactionStatus) (now now' : Datetime) :
    SameButUpdatedAt (args.apply t status now) (args.apply u status now') := by
  obtain ⟨updatedAt, rfl⟩ := h
  exact ⟨now', rfl⟩

end SameButUpdatedAt

/-- Lookups in stores that agree find records that agree. -/
theorem firstMatch_paired {d d' : Transactions} (h : d.Paired SameButUpdatedAt d')
    (checkoutRequestId : String) :
    Option.Rel SameButUpdatedAt (firstMatch checkoutRequestId d)
      (firstMatch checkoutRequestId d') := by
  refine h.find? fun t u htu => ?_
  obtain ⟨updatedAt, rfl⟩ := htu
  rfl

/-- Lookups in paired stores find paired transactions, since the checkout ids are the same in the same
places. -/
theorem firstMatch_paired_left {d d' : Transactions} (h : d.Paired SameButUpdatedAt d')
    {checkoutRequestId : String} {t : PendingTransaction}
    (found : firstMatch checkoutRequestId d = some t) :
    ∃ u, firstMatch checkoutRequestId d' = some u ∧ SameButUpdatedAt t u := by
  have hrel := firstMatch_paired h checkoutRequestId
  rw [found] at hrel
  cases hfound : firstMatch checkoutRequestId d' with
  | none => rw [hfound] at hrel; cases hrel
  | some u =>
    rw [hfound] at hrel
    cases hrel with
    | some htu => exact ⟨u, rfl, htu⟩

theorem firstMatch_paired_right {d d' : Transactions} (h : d.Paired SameButUpdatedAt d')
    {checkoutRequestId : String} {u : PendingTransaction}
    (found : firstMatch checkoutRequestId d' = some u) :
    ∃ t, firstMatch checkoutRequestId d = some t ∧ SameButUpdatedAt t u := by
  have hrel := firstMatch_paired h checkoutRequestId
  rw [found] at hrel
  cases hfound : firstMatch checkoutRequestId d with
  | none => rw [hfound] at hrel; cases hrel
  | some t =>
    rw [hfound] at hrel
    cases hrel with
    | some htu => exact ⟨t, rfl, htu⟩

/-! ## Callbacks whose transaction is not pending any more -/

/-- The id names no pending transaction. -/
def Spent (d : Transactions) (checkoutRequestId : String) : Prop :=
  ∀ t, firstMatch checkoutRequestId d = some t → t.status ≠ .pending

/-- An id is spent alike in stores that agree. -/
theorem Spent.paired {d d' : Transactions} (agree : d.Paired SameButUpdatedAt d') {id : String}
    (h : Spent d id) : Spent d' id := by
  intro u found'
  obtain ⟨t, found, htu⟩ := firstMatch_paired_right agree found'
  rw [← htu.status]
  exact h t found

/-- An id that is spent stays so when some transaction turns terminal. -/
theorem Spent.put {d : Transactions} {id checkoutRequestId : String} (h : Spent d id)
    {t : PendingTransaction} (found : firstMatch checkoutRequestId d = some t)
    (args : UpdateTransactionStatus) {status : TransactionStatus} (terminal : status.Terminal)
    (now : Datetime) : Spent (d.put (args.apply t status now)) id := by
  intro u hu
  have hget : d.get (args.apply t status now).transactionId = some t := (get_of_firstMatch found).1
  have hput : firstMatch id (d.put (args.apply t status now)) = (firstMatch id d).map _ :=
    Keyed.find?_put_of_agree hget (p := fun u => decide (u.checkoutRequestId = id)) rfl
  rw [hput] at hu
  cases hfirst : firstMatch id d with
  | none => rw [hfirst] at hu; cases hu
  | some x =>
    rw [hfirst, Option.map_some] at hu
    split at hu
    next => cases hu; exact terminal
    next => cases hu; exact h u hfirst

/-- Turning the transaction of an id terminal spends the id. -/
theorem spent_put_self {d : Transactions} {checkoutRequestId : String} {t : PendingTransaction}
    (found : firstMatch checkoutRequestId d = some t) (args : UpdateTransactionStatus)
    {status : TransactionStatus} (terminal : status.Terminal) (now : Datetime) :
    Spent (d.put (args.apply t status now)) checkoutRequestId := by
  intro u hu
  cases (firstMatch_put found args status now).symm.trans hu
  exact terminal

/-! ## One callback -/

section Callback

variable {π : Type} {env env' : Env} (settings : Settings) (verifier : CallbackSourceVerifier)
  (provider : PaymentProvider π)

/-- A callback keeps every id spent. -/
theorem Spent.process {id : String} {w : World Transactions π} (h : Spent w.transactions id)
    (payload : PyDict) :
    Spent (Prog.run (handle env (.inMemory settings verifier provider))
      (StkCallbackHandler.process env.toRuntime payload) w).2.transactions id := by
  rcases memory_process env settings verifier provider payload w with
    ⟨-, same, -⟩ | ⟨f, t, -, found, -, -, put⟩
  · rw [same]
    exact h
  · rw [put]
    exact h.put found _ (terminal_targetStatus _) _

/-- A callback whose id is spent changes nothing. -/
theorem process_spent {payload : PyDict} {w : World Transactions π}
    (h : Spent w.transactions (replayCheckoutRequestId env.toRuntime payload)) :
    (Prog.run (handle env (.inMemory settings verifier provider))
      (process env.toRuntime payload) w).2.transactions = w.transactions := by
  rcases memory_process env settings verifier provider payload w with
    ⟨-, same, -⟩ | ⟨f, t, read, found, accepts, -, -⟩
  · exact same
  · rw [replayCheckoutRequestId_of_readFields read] at h
    exact absurd accepts.pending (h t found)

/-- A callback that is applied wherever its id names a pending transaction leaves the id spent: what it
was applied to is terminal, and the id goes on naming it. -/
theorem spent_process {payload : PyDict} {w : World Transactions π}
    (applies : ∀ t, firstMatch (replayCheckoutRequestId env.toRuntime payload) w.transactions = some t →
      t.status = .pending → ∃ f, readFields env.toRuntime payload = .ok (some f) ∧
        f.checkoutRequestId = replayCheckoutRequestId env.toRuntime payload ∧
        f.Accepts env.toRuntime t) :
    Spent (Prog.run (handle env (.inMemory settings verifier provider))
      (process env.toRuntime payload) w).2.transactions
      (replayCheckoutRequestId env.toRuntime payload) := by
  rcases memory_process env settings verifier provider payload w with
    ⟨-, same, refuses⟩ | ⟨f, t, read, found, -, -, put⟩
  · rw [same]
    intro t found hpending
    obtain ⟨f, read, hid, accepts⟩ := applies t found hpending
    exact refuses f t read (hid ▸ found) accepts
  · rw [put, replayCheckoutRequestId_of_readFields read]
    exact spent_put_self found _ (terminal_targetStatus _) _

/-- The same callback on two stores that agree leaves them in agreement: it finds transactions in the
same place, is refused by both, or moves both to the same status at readings of its own. -/
theorem process_paired (runtime : env'.toRuntime = env.toRuntime) (settings' : Settings)
    (payload : PyDict) {w w' : World Transactions π}
    (agree : w.transactions.Paired SameButUpdatedAt w'.transactions) :
    (Prog.run (handle env (.inMemory settings verifier provider))
        (process env.toRuntime payload) w).2.transactions.Paired SameButUpdatedAt
      (Prog.run (handle env' (.inMemory settings' verifier provider))
        (process env'.toRuntime payload) w').2.transactions := by
  rcases memory_process env settings verifier provider payload w with
    ⟨-, same, refuses⟩ | ⟨f, t, read, found, accepts, -, put⟩
  · rcases memory_process env' settings' verifier provider payload w' with
      ⟨-, same', -⟩ | ⟨f', u, read', found', accepts', -, -⟩
    · rw [same, same']
      exact agree
    · rw [runtime] at read' accepts'
      obtain ⟨t, found, htu⟩ := firstMatch_paired_right agree found'
      exact absurd (htu.accepts_iff.mpr accepts') (refuses f' t read' found)
  · rcases memory_process env' settings' verifier provider payload w' with
      ⟨-, -, refuses'⟩ | ⟨f', u, read', found', -, -, put'⟩
    · rw [runtime] at refuses'
      obtain ⟨u, found', htu⟩ := firstMatch_paired_left agree found
      exact absurd (htu.accepts_iff.mp accepts) (refuses' f u read found')
    · rw [runtime] at read'
      cases read.symm.trans read'
      obtain ⟨u', hu', htu⟩ := firstMatch_paired_left agree found
      cases found'.symm.trans hu'
      rw [put, put', runtime]
      have hnew := htu.apply (f.update env.toRuntime) (targetStatus f.resultCode)
        (w.ambient.now env).1 (w'.ambient.now env').1
      exact Keyed.Paired.put (fun _ _ h => h.transactionId) agree hnew

end Callback

/-! ## Both runs -/

section Runs

variable {π : Type} {env env' : Env} (settings : Settings) (verifier : CallbackSourceVerifier)
  (provider : PaymentProvider π)

/-- The container with replay protection switched on or off. -/
abbrev AppContainer.withReplayProtection (enabled : Bool) : AppContainer Transactions π :=
  .inMemory (settings.replayProtection enabled) verifier provider

/-- What holds between the run with replay protection and the run without it, where the steps of
`future` are still to come: each key taken is spent, or is not met again. -/
structure ReplayInvariant (env : Env) (container : AppContainer Transactions π)
    (requests : List CallbackRequest) (future : List (AppStep Transactions π))
    (w w' : World Transactions π) : Prop where
  agree : w.transactions.Paired SameButUpdatedAt w'.transactions
  spent : ∀ entry ∈ w.seen.values, (∃ request ∈ requests,
      entry.1 = buildCallbackReplayKey env.toRuntime request.payload ∧
      Spent w.transactions (replayCheckoutRequestId env.toRuntime request.payload)) ∨
    ∀ next ∈ future, ∀ q, next.input = .postCallback q → container.callbackRoute.Authenticated q →
      buildCallbackReplayKey env.toRuntime q.payload = entry.1 →
      ¬ next.before.Taken env container q.payload

/-- A key the replay store holds after a delivery was there before, or is the delivery's own. -/
theorem mem_seen_admitted {container : AppContainer Transactions π} {payload : PyDict}
    {w : World Transactions π} {entry : String × ℚ}
    (h : entry ∈ (w.admitted env container payload).seen.values) :
    entry ∈ w.seen.values ∨ entry.1 = buildCallbackReplayKey env.toRuntime payload := by
  unfold World.admitted at h
  split at h
  next =>
    have hput := (List.mem_filter.mp h).1
    rcases Keyed.mem_values_put.mp hput with rfl | ⟨hmem, -⟩
    · exact Or.inr rfl
    · exact Or.inl hmem
  next => exact Or.inl h

/-- One delivery to both containers. What only the unprotected one handles is a replay of a delivery
that was applied, so its id is spent, and the handler refuses it there too. -/
theorem ReplayInvariant.step (runtime : env'.toRuntime = env.toRuntime)
    {requests : List CallbackRequest} (sound : NoCollision env.toRuntime requests)
    {request : CallbackRequest} (mem : request ∈ requests) {w w' : World Transactions π}
    {later : List (AppStep Transactions π)}
    (free : ShadowFree env (.withReplayProtection settings verifier provider true)
      (stepAt (MpesaMcp.step env (.withReplayProtection settings verifier provider true)) w
        (.postCallback request) :: later))
    (h : ReplayInvariant env (.withReplayProtection settings verifier provider true) requests
      (stepAt (MpesaMcp.step env (.withReplayProtection settings verifier provider true)) w
        (.postCallback request) :: later) w w') :
    ReplayInvariant env (.withReplayProtection settings verifier provider true) requests later
      (MpesaMcp.step env (.withReplayProtection settings verifier provider true)
        (.postCallback request) w).2
      (MpesaMcp.step env' (.withReplayProtection settings verifier provider false)
        (.postCallback request) w').2 := by
  -- without replay protection every authenticated delivery reaches the handler
  have hoff : ¬ w'.Taken env' (.withReplayProtection settings verifier provider false)
      request.payload := fun htaken => absurd htaken.1 Bool.false_ne_true
  rcases step_postCallback env (.withReplayProtection settings verifier provider true) request w with
    ⟨hrejected, hsame, hseen⟩ | ⟨hauth, -, hafter, hseen⟩
  · refine ⟨?_, ?_⟩
    · rw [hsame]
      rcases step_postCallback env' (.withReplayProtection settings verifier provider false) request
        w' with ⟨-, hsame', -⟩ | ⟨hauth', -, hafter', -⟩
      · rw [hsame']
        exact h.agree
      · -- the delivery is a duplicate, and the callback it repeats spent its id
        have htaken := hrejected.resolve_left fun hun => hun hauth'
        have ⟨_, entry, hget, _⟩ := htaken
        have hkey := Keyed.key_of_get hget
        rcases h.spent entry (Keyed.mem_of_get hget) with
          ⟨earlier, hearlier, hkey', hspent⟩ | hunmet
        · rw [replayCheckoutRequestId_of_key_eq sound hearlier mem (hkey'.symm.trans hkey)] at hspent
          have hspent' : Spent (w'.admitted env'
              (.withReplayProtection settings verifier provider false) request.payload).transactions
              (replayCheckoutRequestId env'.toRuntime request.payload) := by
            rw [World.admitted_transactions, runtime]
            exact hspent.paired h.agree
          rw [hafter', process_spent _ _ _ hspent', World.admitted_transactions]
          exact h.agree
        · exact absurd htaken (hunmet _ List.mem_cons_self request rfl hauth' hkey.symm)
    · rw [hseen, hsame]
      intro entry hentry
      exact (h.spent entry hentry).imp_right fun hunmet next hnext =>
        hunmet next (List.mem_cons_of_mem _ hnext)
  · have hadmitted := World.admitted_transactions env
      (.withReplayProtection settings verifier provider true) request.payload w
    refine ⟨?_, fun entry hentry => ?_⟩
    · rcases step_postCallback env' (.withReplayProtection settings verifier provider false) request
        w' with ⟨hrejected', -, -⟩ | ⟨-, -, hafter', -⟩
      · exact absurd hrejected' (not_or.mpr ⟨not_not.mpr hauth, hoff⟩)
      · rw [hafter, hafter']
        refine process_paired _ _ _ runtime _ request.payload ?_
        rw [hadmitted, World.admitted_transactions]
        exact h.agree
    · rw [hseen] at hentry
      rw [hafter]
      rcases mem_seen_admitted hentry with hold | hnew
      · rcases h.spent entry hold with ⟨earlier, hearlier, hkey, hspent⟩ | hunmet
        · exact Or.inl ⟨earlier, hearlier, hkey,
            (hadmitted.symm ▸ hspent).process _ _ _ request.payload⟩
        · exact Or.inr fun next hnext => hunmet next (List.mem_cons_of_mem _ hnext)
      · rcases free [] _ later rfl with happlies | hunmet
        · refine Or.inl ⟨request, mem, hnew, spent_process _ _ _ ?_⟩
          rw [hadmitted]
          exact happlies request rfl hauth
        · exact Or.inr fun next hnext q hinput hq hkey htaken =>
            hunmet next hnext ⟨request, q, rfl, hinput, hq, hkey.trans hnew, htaken⟩

/-- **Replay protection is transparent** in every run in which no callback that is refused although
its id names a pending transaction is repeated while its key is taken: the final stores with and
without it agree, record by record up to `updated_at`. The two runs have clocks of their own. -/
theorem replay_transparent (runtime : env'.toRuntime = env.toRuntime) (transactions : Transactions)
    (state : π) (requests : List CallbackRequest) (sound : NoCollision env.toRuntime requests)
    (free : ShadowFree env (.withReplayProtection settings verifier provider true)
      (trace (MpesaMcp.step env (.withReplayProtection settings verifier provider true))
        (start transactions state) (requests.map .postCallback))) :
    (final (MpesaMcp.step env (.withReplayProtection settings verifier provider true))
      (start transactions state) (requests.map .postCallback)).transactions.Paired SameButUpdatedAt
    (final (MpesaMcp.step env' (.withReplayProtection settings verifier provider false))
      (start transactions state) (requests.map .postCallback)).transactions := by
  -- the deliveries still to come are among those of the whole run
  have rest : ∀ (later : List CallbackRequest) (w w' : World Transactions π),
      (∀ request ∈ later, request ∈ requests) →
      ShadowFree env (.withReplayProtection settings verifier provider true)
        (trace (MpesaMcp.step env (.withReplayProtection settings verifier provider true)) w
          (later.map .postCallback)) →
      ReplayInvariant env (.withReplayProtection settings verifier provider true) requests
        (trace (MpesaMcp.step env (.withReplayProtection settings verifier provider true)) w
          (later.map .postCallback)) w w' →
      (final (MpesaMcp.step env (.withReplayProtection settings verifier provider true)) w
        (later.map .postCallback)).transactions.Paired SameButUpdatedAt
      (final (MpesaMcp.step env' (.withReplayProtection settings verifier provider false)) w'
        (later.map .postCallback)).transactions := by
    intro later
    induction later with
    | nil => exact fun _ _ _ _ h => h.agree
    | cons request later ih =>
      intro w w' hsub hfree h
      have hstep := h.step settings verifier provider runtime sound
        (hsub request List.mem_cons_self) hfree
      exact ih _ _ (fun r hr => hsub r (List.mem_cons_of_mem _ hr)) hfree.tail hstep
  exact rest requests _ _ (fun _ h => h) free
    ⟨.refl SameButUpdatedAt.refl _, fun entry h => nomatch h⟩

end Runs

/-! ## A callback shadowed by an incomplete one -/

/-- Surroundings with the digest of the one fingerprint that is needed here. -/
def Env.digesting : Env :=
  { Env.still with
    sha256Hexdigest := fun text =>
      if text = "\x7b\"CheckoutRequestID\":\"ws_CO_1\",\"MpesaReceiptNumber\":\"\",\"ResultCode\":\"1032\"\x7d"
      then "e810df3ce3751d842e9a3392e35b575160580c5e0c1c5d72ea45570562adbcc8"
      else text }

/-- The callback of a cancelled push, with these further fields. -/
def cancelledCallback (fields : PyDict) : CallbackRequest where
  payload := [("Body", .dict [("stkCallback", .dict
    ([("CheckoutRequestID", .str "ws_CO_1"), ("ResultCode", .int 1032)] ++ fields))])]

/-- The same callback, first without its description and then with it. -/
def incompleteThenComplete : List CallbackRequest :=
  [cancelledCallback [], cancelledCallback [("ResultDesc", .str "Request cancelled by user.")]]

/-- The status that lookups find. -/
def statusOf (checkoutRequestId : String) (d : Transactions) : Option TransactionStatus :=
  (firstMatch checkoutRequestId d).map PendingTransaction.status

/-- Paired stores agree on the status of every checkout id. -/
theorem statusOf_paired {d d' : Transactions} (h : d.Paired SameButUpdatedAt d')
    (checkoutRequestId : String) : statusOf checkoutRequestId d = statusOf checkoutRequestId d' := by
  have hrel := firstMatch_paired h checkoutRequestId
  unfold statusOf
  generalize firstMatch checkoutRequestId d = x at hrel
  generalize firstMatch checkoutRequestId d' = y at hrel
  cases hrel with
  | none => rfl
  | some htu => exact congrArg some htu.status

/-- With replay protection the complete callback is a duplicate, and the payment stays pending. -/
theorem shadowed_by_incomplete :
    ¬ (final (step Env.digesting (.withReplayProtection {} .development
        MockDarajaPaymentProvider true)) (start (Keyed.empty.put tenShillings) ())
          (incompleteThenComplete.map .postCallback)).transactions.Paired SameButUpdatedAt
      (final (step Env.digesting (.withReplayProtection {} .development
        MockDarajaPaymentProvider false)) (start (Keyed.empty.put tenShillings) ())
          (incompleteThenComplete.map .postCallback)).transactions := by
  intro h
  exact absurd (statusOf_paired h "ws_CO_1") (by decide +kernel)

/-- A callback that is applied and then delivered again ends alike in both runs. -/
theorem replay_transparent_repeated :
    (final (step Env.digesting (.withReplayProtection {} .development
        MockDarajaPaymentProvider true)) (start (Keyed.empty.put tenShillings) ())
          ([cancelledCallback [("ResultDesc", .str "Request cancelled by user.")],
            cancelledCallback [("ResultDesc", .str "Request cancelled by user.")]].map
              .postCallback)).transactions.Paired SameButUpdatedAt
      (final (step Env.digesting (.withReplayProtection {} .development
        MockDarajaPaymentProvider false)) (start (Keyed.empty.put tenShillings) ())
          ([cancelledCallback [("ResultDesc", .str "Request cancelled by user.")],
            cancelledCallback [("ResultDesc", .str "Request cancelled by user.")]].map
              .postCallback)).transactions := by
  refine replay_transparent {} .development MockDarajaPaymentProvider rfl
    (Keyed.empty.put tenShillings) () _ ?_ ?_
  · intro p hp q hq _
    simp only [List.mem_cons, List.not_mem_nil, or_false, or_self] at hp hq
    rw [hp, hq]
  · intro history st later hrun
    cases history with
    | nil =>
      left
      cases hrun
      intro request hrequest _ t found _
      cases hrequest
      cases found
      exact ⟨⟨"ws_CO_1", 1032, "Request cancelled by user.", []⟩, rfl, rfl, rfl, ⟨none, rfl⟩,
        nofun, nofun, nofun⟩
    | cons _ history =>
      right
      -- nothing follows the second delivery
      have hlength := congrArg List.length hrun
      simp only [trace, List.map_cons, List.map_nil, List.length_cons, List.length_nil,
        List.length_append] at hlength
      have hlater : later = [] := List.length_eq_zero_iff.mp (by omega)
      rw [hlater]
      exact fun _ hnext => absurd hnext List.not_mem_nil

end MpesaMcp
