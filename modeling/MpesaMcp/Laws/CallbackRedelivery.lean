import MpesaMcp.Laws.Database
import MpesaMcp.Laws.ReplayProtection

/-!
# Delivering a callback again after a database failure

The replay key of a delivery is stored before the handler runs and is not given back when the handler
fails. A delivery that was answered 503 can therefore be repeated only once the window is over, and
only if the failed one did not commit (`redeliverable_iff`).
-/

set_option autoImplicit false

namespace MpesaMcp

open Library Python StkCallbackHandler

section Property

variable {π : Type} (env : Env) (container : AppContainer TransactionTable π)

/-- The same world at another time. -/
def World.at {τ : Type} (w : World τ π) (ambient : Ambient) : World τ π :=
  { w with ambient := ambient }

/-- A delivery took `w` to `w₁`. The same delivery once more, at the time of `w₁`, does what it does
where the first was never made, and it is not called a duplicate. -/
structure Redeliverable (request : CallbackRequest) (w w₁ : World TransactionTable π) : Prop where
  response : (step env container (.postCallback request) w₁).1 =
    (step env container (.postCallback request) (w.at w₁.ambient)).1
  transactions : (step env container (.postCallback request) w₁).2.transactions =
    (step env container (.postCallback request) (w.at w₁.ambient)).2.transactions
  notDuplicate : ∀ status reason, (step env container (.postCallback request) w₁).1 ≠
    .ok (.callback (.json 409 status reason))

/-- The replay window of a delivery at `w` is over at `w₁`. -/
def WindowOver (w w₁ : World TransactionTable π) : Prop :=
  (w.ambient.monotonic env).1 + container.settings.callbackReplayWindowSeconds ≤
    (w₁.ambient.monotonic env).1

end Property

section Redelivery

variable {π : Type} {env : Env} {settings : Settings} {verifier : CallbackSourceVerifier}
  {provider : PaymentProvider π}

/-! ## The two stores that a delivery reads -/

/-- A delivery that is answered 503 reached the handler, and left its key in the replay store. -/
theorem unavailable_delivered {container : AppContainer TransactionTable π}
    {request : CallbackRequest} {w w₁ : World TransactionTable π} {message : String}
    (failed : step env container (.postCallback request) w =
      (.ok (.callback (.json 503 "infrastructure_unavailable" message)), w₁)) :
    container.callbackRoute.Authenticated request ∧ ¬ w.Taken env container request.payload ∧
      Prog.run (handle env container)
        (CallbackRoute.processCallback env.toRuntime request.payload)
          (w.admitted env container request.payload) =
        (.ok (.json 503 "infrastructure_unavailable" message), w₁) := by
  simp only [step, program, Prog.run_map, Prod.mk.injEq] at failed
  obtain ⟨hanswer, hafter⟩ := failed
  have hanswer : _ = Except.ok (CallbackResponse.json 503 "infrastructure_unavailable"
      message) := response_of_reply hanswer
  cases delivery_cases env container request w with
  | rejected _ answer _ =>
    rw [hanswer] at answer
    rcases answer with h | ⟨reason, h⟩ | ⟨e, h⟩ <;> cases h
  | duplicate _ _ answer _ =>
    rw [hanswer] at answer
    cases answer
  | delivered authenticated free ran =>
    exact ⟨authenticated, free, ran.trans (Prod.ext hanswer hafter)⟩

/-- The store that the handler meets. -/
theorem admitted_store {container : AppContainer TransactionTable π}
    (enabled : container.settings.callbackReplayProtectionEnabled = true) (payload : PyDict)
    (w : World TransactionTable π) :
    (w.admitted env container payload).store = ((w.ambient.monotonic env).2, w.transactions) := by
  unfold World.admitted
  rw [if_pos enabled]
  rfl

variable (env) in
/-- Two worlds with the same stores and readings answer a callback alike, for the handler looks at
nothing else; so an answer can be computed in the simpler one. -/
theorem processCallback_congr (container : AppContainer TransactionTable π) (payload : PyDict)
    {w w' : World TransactionTable π} (same : w.store = w'.store) :
    let p := CallbackRoute.processCallback env.toRuntime payload
    (Prog.run (handle env container) p w).1 = (Prog.run (handle env container) p w').1 ∧
      (Prog.run (handle env container) p w).2.store =
        (Prog.run (handle env container) p w').2.store := by
  refine Prog.run_simulates
    (R := fun s s' : World TransactionTable π => s.store = s'.store) (fun m hm s s' hs => ?_)
    (CallbackRoute.sends_processCallback _ payload) same
  cases m with
  | transactions m =>
    simp only [handle_transactions, World.store_withStore, hs, and_self]
  | logEvent event => exact ⟨rfl, hs⟩
  | increment counter => exact ⟨rfl, hs⟩
  | _ => exact absurd hm id

/-- A callback that is applied and one that is not are answered differently. -/
theorem response_ne {container : AppContainer TransactionTable π} {payload : PyDict}
    {w w' : World TransactionTable π} {f : CallbackFields}
    (unapplied : Unapplied
      (Prog.run (handle env container) (process env.toRuntime payload) w).1)
    (applied : AppliedAs f
      (Prog.run (handle env container) (process env.toRuntime payload) w').1) :
    (Prog.run (handle env container) (CallbackRoute.processCallback env.toRuntime payload) w).1 ≠
      (Prog.run (handle env container)
        (CallbackRoute.processCallback env.toRuntime payload) w').1 := by
  intro h
  obtain ⟨result, hresult, hstatus, -⟩ := applied
  have hanswer' := ((run_processCallback env container payload w').2.2 result).mpr hresult
  have hanswer := ((run_processCallback env container payload w).2.2 result).mp (h.trans hanswer')
  rw [hanswer] at unapplied
  exact unapplied (hstatus ▸ applied_targetOutcome _)

/-! ## The replay key of the failed delivery -/

/-- The key is free again once the window is over, and not before: it was taken until a time that no
reading within the window reaches. -/
theorem taken_again_iff {container : AppContainer TransactionTable π} {payload : PyDict}
    {w w₁ : World TransactionTable π}
    (enabled : container.settings.callbackReplayProtectionEnabled = true)
    (claimed : w₁.seen = (w.admitted env container payload).seen)
    (forward : w.ambient.Forward w₁.ambient) :
    w₁.Taken env container payload ↔ ¬ WindowOver env container w w₁ := by
  have hlater : (w.ambient.monotonic env).1 ≤ (w₁.ambient.monotonic env).1 :=
    env.monotonic_mono forward.monotonicReads
  unfold World.admitted at claimed
  rw [if_pos enabled] at claimed
  unfold World.Taken WindowOver
  rw [claimed, live_claimKey env hlater, not_le]
  exact and_iff_right enabled

/-- A key that was free stays free where nothing claims it. -/
theorem free_at {container : AppContainer TransactionTable π} {payload : PyDict}
    {w : World TransactionTable π} (free : ¬ w.Taken env container payload) {a : Ambient}
    (forward : w.ambient.Forward a) : ¬ (w.at a).Taken env container payload :=
  fun taken => free ⟨taken.1, taken.2.earlier (env.monotonic_mono forward.monotonicReads)⟩

/-! ## The transaction of the failed delivery -/

/-- What commits depends on the store only, and of the surroundings on the health of the database. -/
theorem Commits.congr {payload : PyDict} {w w' : World TransactionTable π} {f : CallbackFields}
    {row : PendingTransaction} (h : Commits env payload w f row)
    (same : w'.transactions.rows = w.transactions.rows)
    (lookup : env.databaseFails w'.ambient.statements = false)
    (select : env.databaseFails (w'.ambient.statements + 1) = false)
    (commit : env.databaseFails (w'.ambient.statements + 2) = false) :
    Commits env payload w' f row where
  read := h.read
  found := same ▸ h.found
  accepts := h.accepts
  columns :=
    ⟨h.columns.1, h.columns.2, h.columns.3, h.columns.4, h.columns.5, h.columns.6, h.columns.7,
      h.columns.8, h.columns.9, h.columns.10, h.columns.11, h.columns.12, h.columns.13,
      h.columns.14, h.columns.15⟩
  lookup := lookup
  select := select
  commit := commit

/-- A transaction that the callback has moved is not moved again. -/
theorem not_commits_moved {payload : PyDict} {w w₁ : World TransactionTable π} {f : CallbackFields}
    {row : PendingTransaction} (h : Commits env payload w f row) {now : Datetime}
    (moved : w₁.transactions.rows = w.transactions.rows.put
      ((f.update env.toRuntime).apply row (targetStatus f.resultCode) now))
    (g : CallbackFields) (row' : PendingTransaction) : ¬ Commits env payload w₁ g row' := by
  intro h'
  cases h.read.symm.trans h'.read
  have hfound := h'.found
  rw [moved] at hfound
  cases (firstMatch_put h.found (f.update env.toRuntime) _ now).symm.trans hfound
  exact terminal_targetStatus f.resultCode h'.accepts.pending

theorem commits_admitted {container : AppContainer TransactionTable π} {payload : PyDict}
    {w : World TransactionTable π} {f : CallbackFields} {row : PendingTransaction} :
    Commits env payload (w.admitted env container payload) f row ↔ Commits env payload w f row := by
  constructor
  · intro h
    refine h.congr (by rw [World.admitted_transactions]) ?_ ?_ ?_
    · exact (World.admitted_statements env container payload w) ▸ h.lookup
    · exact (World.admitted_statements env container payload w) ▸ h.select
    · exact (World.admitted_statements env container payload w) ▸ h.commit
  · intro h
    refine h.congr (by rw [World.admitted_transactions]) ?_ ?_ ?_
    · rw [World.admitted_statements, h.lookup]
    · rw [World.admitted_statements, h.select]
    · rw [World.admitted_statements, h.commit]

/-- What the handler does with an admitted callback, in terms of the world before the delivery. -/
theorem process_admitted (payload : PyDict) (w : World TransactionTable π) :
    let container := AppContainer.postgres settings verifier provider
    let r := Prog.run (handle env container) (process env.toRuntime payload)
      (w.admitted env container payload)
    ((∀ f row, ¬ Commits env payload w f row) ∧ Unapplied r.1 ∧
      r.2.transactions = w.transactions) ∨
    ∃ f row, Commits env payload w f row ∧
      r.2.transactions.rows = w.transactions.rows.put ((f.update env.toRuntime).apply row
        (targetStatus f.resultCode) (env.clock w.ambient.clockReads)) ∧
      (env.databaseFails (w.ambient.statements + 3) = false → AppliedAs f r.1) := by
  intro container r
  rcases postgres_process env settings verifier provider payload
    (w.admitted env container payload) with
      ⟨hnone, hunapplied, hsame⟩ | ⟨f, row, hcommits, hrows, hanswer⟩
  · refine Or.inl ⟨fun f row h => hnone f row (commits_admitted.mpr h), hunapplied, ?_⟩
    rw [hsame, World.admitted_transactions]
  · refine Or.inr ⟨f, row, commits_admitted.mp hcommits, ?_, fun healthy => ?_⟩
    · rw [hrows, World.admitted_transactions, World.admitted_clockReads]
    · rw [World.admitted_statements] at hanswer
      rcases hanswer with ⟨hfail, -⟩ | ⟨-, happlied⟩
      · cases hfail.symm.trans healthy
      · exact happlied

/-! ## Redelivery -/

/-- What a delivery that was answered 503 left in the table: nothing, or the row it committed. -/
theorem unavailable_transactions {request : CallbackRequest} {w w₁ : World TransactionTable π}
    {message : String}
    (ran : Prog.run (handle env (.postgres settings verifier provider))
        (CallbackRoute.processCallback env.toRuntime request.payload)
          (w.admitted env (.postgres settings verifier provider) request.payload) =
        (.ok (.json 503 "infrastructure_unavailable" message), w₁)) :
    ((∀ f row, ¬ Commits env request.payload w f row) ∧ w₁.transactions = w.transactions) ∨
    ∃ f row, Commits env request.payload w f row ∧
      w₁.transactions.rows = w.transactions.rows.put ((f.update env.toRuntime).apply row
        (targetStatus f.resultCode) (env.clock w.ambient.clockReads)) := by
  have hstore := (run_processCallback env (.postgres settings verifier provider)
    request.payload (w.admitted env (.postgres settings verifier provider) request.payload)).1
  rw [ran] at hstore
  have hsame := congrArg Prod.snd hstore
  rcases @process_admitted π env settings verifier provider request.payload w with
    ⟨hnone, -, hquiet⟩ | ⟨f, row, hcommits, hrows, -⟩
  · exact Or.inl ⟨hnone, hsame.trans hquiet⟩
  · exact Or.inr ⟨f, row, hcommits, (congrArg TransactionTable.rows hsame).trans hrows⟩

/-- Where the failed delivery committed, the repeated one finds its transaction terminal, while it
would be applied if the failed one had never been made. -/
theorem response_ne_of_commits {payload : PyDict} {w w₁ : World TransactionTable π}
    {f : CallbackFields} {row : PendingTransaction} (commits : Commits env payload w f row)
    {now : Datetime} (moved : w₁.transactions.rows = w.transactions.rows.put
      ((f.update env.toRuntime).apply row (targetStatus f.resultCode) now))
    (healthy : ∀ n, w₁.ambient.statements ≤ n → env.databaseFails n = false) :
    let container := AppContainer.postgres settings verifier provider
    (Prog.run (handle env container) (CallbackRoute.processCallback env.toRuntime payload)
        (w₁.admitted env container payload)).1 ≠
      (Prog.run (handle env container) (CallbackRoute.processCallback env.toRuntime payload)
        ((w.at w₁.ambient).admitted env container payload)).1 := by
  intro container
  have hcommits₀ : Commits env payload (w.at w₁.ambient) f row :=
    commits.congr rfl (healthy _ (Nat.le_refl _)) (healthy _ (Nat.le_add_right _ _))
      (healthy _ (Nat.le_add_right _ _))
  have hunapplied : Unapplied (Prog.run (handle env container) (process env.toRuntime payload)
      (w₁.admitted env container payload)).1 := by
    rcases process_admitted payload w₁ with ⟨-, hunapplied, -⟩ | ⟨g, row', hcommits', -⟩
    · exact hunapplied
    · exact absurd hcommits' (not_commits_moved commits moved g row')
  rcases process_admitted payload (w.at w₁.ambient) with ⟨hnone, -⟩ | ⟨g, row', -, -, happlied⟩
  · exact absurd hcommits₀ (hnone f row)
  · exact response_ne hunapplied (happlied (healthy _ (Nat.le_add_right _ _)))

/-- **A callback that was answered 503 can be redelivered** exactly where the replay window of the
failed delivery is over and the failed delivery did not commit. -/
theorem redeliverable_iff (enabled : settings.callbackReplayProtectionEnabled = true)
    {request : CallbackRequest} {w w₁ : World TransactionTable π} {message : String}
    (failed : step env (.postgres settings verifier provider) (.postCallback request) w =
      (.ok (.callback (.json 503 "infrastructure_unavailable" message)), w₁))
    (healthy : ∀ n, w₁.ambient.statements ≤ n → env.databaseFails n = false) :
    Redeliverable env (.postgres settings verifier provider) request w w₁ ↔
      WindowOver env (.postgres settings verifier provider) w w₁ ∧
        ∀ f row, ¬ Commits env request.payload w f row := by
  have hforward : w.ambient.Forward w₁.ambient := by
    have h := run_forward env (.postgres settings verifier provider)
      (program (.postgres settings verifier provider) env.toRuntime (.postCallback request)) w
    rw [show Prog.run _ _ _ = _ from failed] at h
    exact h
  obtain ⟨hauth, hfree, hran⟩ := unavailable_delivered failed
  have hseen := (run_processCallback env (.postgres settings verifier provider)
    request.payload (w.admitted env (.postgres settings verifier provider) request.payload)).2.1
  rw [hran] at hseen
  have hkey := taken_again_iff enabled hseen hforward
  have hfresh := step_delivered env (.postgres settings verifier provider) hauth
    (free_at hfree hforward)
  rw [Prog.run_map] at hfresh
  constructor
  · intro h
    have hover : WindowOver env (.postgres settings verifier provider) w w₁ := by
      by_contra hinside
      exact h.notDuplicate _ _ (step_duplicate env _ hauth (hkey.mpr hinside))
    refine ⟨hover, fun f row hcommits => ?_⟩
    have hresponse := h.response
    rw [step_delivered env _ hauth (fun taken => hkey.mp taken hover), hfresh, Prog.run_map]
      at hresponse
    rcases unavailable_transactions hran with ⟨hnone, -⟩ | ⟨g, row', hcommits', hmoved⟩
    · exact hnone f row hcommits
    · exact response_ne_of_commits hcommits' hmoved healthy (response_of_reply hresponse)
  · rintro ⟨hover, hcommits⟩
    have hsame : w₁.transactions = w.transactions := by
      rcases unavailable_transactions hran with ⟨-, hsame⟩ | ⟨f, row, hcommits', -⟩
      · exact hsame
      · exact absurd hcommits' (hcommits f row)
    have hagain := step_delivered env (.postgres settings verifier provider) hauth
      fun taken => hkey.mp taken hover
    rw [Prog.run_map] at hagain
    have hstores : (w₁.admitted env (.postgres settings verifier provider) request.payload).store =
        ((w.at w₁.ambient).admitted env (.postgres settings verifier provider)
          request.payload).store := by
      rw [admitted_store enabled, admitted_store enabled, hsame]
      rfl
    obtain ⟨hresponse, hafter⟩ := processCallback_congr env
      (.postgres settings verifier provider) request.payload hstores
    refine ⟨?_, ?_, ?_⟩
    · rw [hagain, hfresh, hresponse]
    · rw [hagain, hfresh]
      exact congrArg Prod.snd hafter
    · intro status reason h
      rw [hagain] at h
      exact run_processCallback_ne_duplicate env _ request.payload _ status reason
        (response_of_reply h)

end Redelivery

/-! ## A callback lost to a failed lookup -/

/-- Surroundings whose first database statement fails. The monotonic clock advances by so many
seconds from one reading to the next. -/
def Env.failsFirst (seconds : Nat) : Env :=
  { Env.digesting with
    monotonic := fun n => (n * seconds : Nat)
    monotonic_mono := fun _ _ h => Nat.cast_le.mpr (Nat.mul_le_mul_right seconds h)
    databaseFails := fun n => decide (n = 0) }

/-- Only the first statement fails. -/
theorem failsFirst_healthy {seconds n : Nat} (h : 1 ≤ n) :
    (Env.failsFirst seconds).databaseFails n = false :=
  decide_eq_false (Nat.pos_iff_ne_zero.mp h)

/-- A table with one row. -/
def TransactionTable.single (row : PendingTransaction) (columns : ColumnsHold row) :
    TransactionTable where
  rows := Keyed.empty.put row
  columns := fun _ h => by
    cases List.mem_singleton.mp h
    exact columns
  distinct := List.pairwise_singleton _ _

/-- A container that starts over the pending payment of 10 shillings. -/
def startTenShillings : World TransactionTable Unit :=
  start (.single tenShillings (by decide +kernel)) ()

/-- The callback that cancels this payment. -/
def cancelledByUser : CallbackRequest :=
  cancelledCallback [("ResultDesc", .str "Request cancelled by user.")]

/-- The lookup fails, the delivery is answered 503, and the same delivery is then a duplicate. -/
theorem lost_after_failed_lookup :
    let container := AppContainer.postgres {} .development MockDarajaPaymentProvider
    let delivery := step (.failsFirst 0) container (.postCallback cancelledByUser) startTenShillings
    delivery.1 = .ok (.callback (.json 503 "infrastructure_unavailable"
      "Transaction storage is unavailable.")) ∧
    (∀ n, delivery.2.ambient.statements ≤ n → (Env.failsFirst 0).databaseFails n = false) ∧
    ¬ Redeliverable (.failsFirst 0) container cancelledByUser startTenShillings delivery.2 := by
  refine ⟨rfl, fun n hn => failsFirst_healthy hn, fun h => ?_⟩
  refine h.notDuplicate _ _ (step_duplicate _ _ ⟨trivial, _, rfl, rfl⟩ ?_)
  refine ⟨rfl, (buildCallbackReplayKey (Env.failsFirst 0).toRuntime cancelledByUser.payload, 600),
    ?_, ?_⟩
  · decide +kernel
  · decide +kernel

/-- Ten minutes later the same delivery is processed as if the lookup had never failed. -/
theorem redelivered_after_window :
    let container := AppContainer.postgres {} .development MockDarajaPaymentProvider
    Redeliverable (.failsFirst 600) container cancelledByUser startTenShillings
      (step (.failsFirst 600) container (.postCallback cancelledByUser) startTenShillings).2 := by
  refine (redeliverable_iff rfl rfl
    fun n hn => failsFirst_healthy hn).mpr ⟨?_, fun f row h => ?_⟩
  · unfold WindowOver
    decide +kernel
  · exact absurd h.lookup (by decide)

end MpesaMcp
