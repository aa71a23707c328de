import MpesaMcp.Laws.IdempotentPushes

/-!
# Pushes that leave no row behind

Over the Postgres repository the push goes out before its row is inserted, and nothing checks before
the push whether the row can be. `noOrphan_iff` says exactly when a push leaves no orphan.
-/

set_option autoImplicit false

namespace MpesaMcp

open Library Python PaymentService

/-! ## The property -/

/-- The columns hold the request: what could be known before the provider is called. -/
structure RequestFits (request : InitiatePayment) (idempotencyKey : String) : Prop where
  idempotencyKey : idempotencyKey.length ≤ 128
  phoneNumber : request.phoneNumber.length ≤ 32
  amount : Int32Range request.amount
  accountReference : request.accountReference.length ≤ 128
  description : request.description.length ≤ 255

/-- A row with this checkout request id is stored. -/
def HasCheckout (checkoutRequestId : String) (t : TransactionTable) : Prop :=
  ∃ row ∈ t.rows.values, row.checkoutRequestId = checkoutRequestId

/-- Where the provider returned a response, its row is stored; a request that the store cannot hold
does not reach the provider. -/
structure NoOrphan {π : Type} (request : InitiatePayment) (idempotencyKey : String)
    (w w' : World TransactionTable π) : Prop where
  recorded : ∀ call ∈ w'.initiations.drop w.initiations.length, ∀ response,
    call.result = .ok response → HasCheckout response.checkoutRequestId w'.transactions
  refusedFirst : ¬ RequestFits request idempotencyKey → w'.initiations = w.initiations

section Push

variable {π : Type} {env : Env} {settings : Settings} {verifier : CallbackSourceVerifier}
  {provider : PaymentProvider π}

/-- The row that records a response, at the surroundings of the save. -/
def responseRow (env : Env) (request : InitiatePayment) (idempotencyKey : String)
    (response : PaymentInitiationResponse) (a : Ambient) : PendingTransaction :=
  savedRow env a (saveArguments request idempotencyKey response)

/-- Once the lookup found nothing, a push leaves no orphan where the columns hold the request, and a
response of the provider names a stored payment or has a row that can be inserted. -/
def Safe (env : Env) (container : AppContainer TransactionTable π) (request : InitiatePayment)
    (idempotencyKey : String) (w : World TransactionTable π) : Prop :=
  RequestFits request idempotencyKey ∧ ∀ response w₁,
    pushAnswer env container request (w.lookedUp env container idempotencyKey) =
      (.ok response, w₁) →
    HasCheckout response.checkoutRequestId w.transactions ∨
      Insertable env w.transactions w₁.ambient.statements
        (responseRow env request idempotencyKey response w₁.ambient)

/-- The lookup of a push in Postgres: which of the two answers lead to the provider. -/
theorem postgres_lookup (idempotencyKey : String) (w : World TransactionTable π) :
    (keyAnswer env (.postgres settings verifier provider) idempotencyKey w.store).1 = .ok none ↔
      env.databaseFails w.ambient.statements = false ∧
        ¬ HasKey idempotencyKey w.transactions.rows := by
  have hanswer : keyAnswer env (.postgres settings verifier provider) idempotencyKey w.store = _ :=
    postgres_findKey env w.ambient w.transactions idempotencyKey
  rw [hanswer]
  cases hfails : env.databaseFails w.ambient.statements with
  | true => exact ⟨nofun, fun h => absurd h.1 (by decide)⟩
  | false =>
    rw [if_neg Bool.false_ne_true, ← keyMatch_eq_none]
    exact ⟨fun h => ⟨rfl, Except.ok.inj h⟩, fun h => congrArg Except.ok h.2⟩

/-- After the save of a response its row is stored exactly where one was before, or could be
inserted. -/
theorem hasCheckout_saved_iff {request : InitiatePayment} {idempotencyKey : String}
    {response : PaymentInitiationResponse} {w₁ : World TransactionTable π}
    {answer : Except Exn PendingTransaction} {s : Ambient × TransactionTable}
    (saved : saveAnswer env (.postgres settings verifier provider) request idempotencyKey response
      w₁.store = (answer, s)) :
    (HasCheckout response.checkoutRequestId s.2 ↔
      HasCheckout response.checkoutRequestId w₁.transactions ∨
        Insertable env w₁.transactions w₁.ambient.statements
          (responseRow env request idempotencyKey response w₁.ambient)) := by
  have hcase := (postgres_save env w₁.ambient w₁.transactions
    (saveArguments request idempotencyKey response)).2
  have hanswer : PostgresTransactionRepository.answer env (.savePendingTransaction
      (saveArguments request idempotencyKey response)) (w₁.ambient, w₁.transactions) =
        (answer, s) := saved
  rw [hanswer] at hcase
  have hput : s.2.rows = w₁.transactions.rows.put
        (responseRow env request idempotencyKey response w₁.ambient) →
      HasCheckout response.checkoutRequestId s.2 := by
    intro put
    refine ⟨responseRow env request idempotencyKey response w₁.ambient, ?_, rfl⟩
    rw [put]
    exact Keyed.mem_values_put.mpr (Or.inl rfl)
  cases hcase with
  | refused e _ same cause =>
    rw [show s.2 = w₁.transactions from same]
    exact ⟨Or.inl, fun h => h.resolve_right cause⟩
  | unread insertable put => exact ⟨fun _ => Or.inr insertable, fun _ => hput put⟩
  | saved insertable put => exact ⟨fun _ => Or.inr insertable, fun _ => hput put⟩

/-- A push that does not reach the provider leaves no orphan. -/
theorem noOrphan_of_quiet {request : InitiatePayment} {idempotencyKey : String}
    {w w' : World TransactionTable π} (quiet : w'.initiations = w.initiations) :
    NoOrphan request idempotencyKey w w' where
  recorded call hcall := by
    rw [quiet, List.drop_length] at hcall
    cases hcall
  refusedFirst _ := quiet

/-- A push that reaches the provider leaves none where the columns hold its request and the response,
if there is one, has its row. -/
theorem noOrphan_of_call {request : InitiatePayment} {idempotencyKey : String}
    {w w' : World TransactionTable π} {call : Initiation}
    (calls : w'.initiations = w.initiations ++ [call]) :
    NoOrphan request idempotencyKey w w' ↔ RequestFits request idempotencyKey ∧
      ∀ response, call.result = .ok response →
        HasCheckout response.checkoutRequestId w'.transactions := by
  constructor
  · intro h
    refine ⟨?_, fun response => h.recorded call ?_ response⟩
    · by_contra hunfit
      have hsame := calls.symm.trans (h.refusedFirst hunfit)
      simp only [List.append_right_eq_self, List.cons_ne_nil] at hsame
    · rw [calls, List.drop_left]
      exact List.mem_singleton_self call
  · rintro ⟨hfits, hrecorded⟩
    refine ⟨fun call' hcall => ?_, fun hunfit => absurd hfits hunfit⟩
    rw [calls, List.drop_left] at hcall
    cases List.mem_singleton.mp hcall
    exact hrecorded

/-- A push whose response is handed to the repository leaves no orphan exactly where it is safe. -/
theorem noOrphan_of_saved {request : InitiatePayment} {idempotencyKey : String}
    {response : PaymentInitiationResponse} {w w₁ w' : World TransactionTable π}
    {answer : Except Exn PendingTransaction} {s : Ambient × TransactionTable}
    (answered : pushAnswer env (.postgres settings verifier provider) request
      (w.lookedUp env (.postgres settings verifier provider) idempotencyKey) = (.ok response, w₁))
    (saved : saveAnswer env (.postgres settings verifier provider) request idempotencyKey response
      w₁.store = (answer, s))
    (calls : w'.initiations = w₁.initiations) (transactions : w'.transactions = s.2) :
    NoOrphan request idempotencyKey w w' ↔
      Safe env (.postgres settings verifier provider) request idempotencyKey w := by
  have hsame : w₁.transactions = w.transactions := by
    rw [(pushAnswer_spares env _ answered).1]
    exact (PostgresTransactionRepository.rowStore.lookup env idempotencyKey w.ambient
      w.transactions).1
  obtain ⟨call, hresult, hcalls⟩ := pushAnswer_initiations env _ answered
  have hcalls : w'.initiations = w.initiations ++ [call] := calls.trans hcalls
  have hstored := hasCheckout_saved_iff saved
  rw [hsame] at hstored
  rw [noOrphan_of_call hcalls, transactions]
  refine and_congr_right fun _ => ⟨fun h response' w₂ answered' => ?_, fun h response' hok => ?_⟩
  · cases answered.symm.trans answered'
    exact hstored.mp (h response hresult)
  · cases hresult.symm.trans hok
    exact hstored.mpr (h response w₁ answered)

/-- **No orphan payment**: a push leaves none exactly where its lookup fails or finds its key, or where
it is safe. Otherwise the provider is asked for a payment whose row the database does not keep. -/
theorem noOrphan_iff (request : InitiatePayment) (idempotencyKey : String)
    (w : World TransactionTable π) :
    let container := AppContainer.postgres settings verifier provider
    NoOrphan request idempotencyKey w
        (Prog.run (handle env container) (executeStkPush request idempotencyKey) w).2 ↔
      env.databaseFails w.ambient.statements = true ∨ HasKey idempotencyKey w.transactions.rows ∨
        Safe env container request idempotencyKey w := by
  intro container
  have hlookup : (keyAnswer env container idempotencyKey w.store).1 = .ok none ↔ _ :=
    postgres_lookup idempotencyKey w
  have found : (keyAnswer env container idempotencyKey w.store).1 ≠ .ok none →
      env.databaseFails w.ambient.statements = true ∨
        HasKey idempotencyKey w.transactions.rows := by
    intro hfound
    by_contra hnone
    rw [not_or, Bool.not_eq_true] at hnone
    exact hfound (hlookup.mpr hnone)
  have missed : (keyAnswer env container idempotencyKey w.store).1 = .ok none →
      ((env.databaseFails w.ambient.statements = true ∨ HasKey idempotencyKey w.transactions.rows ∨
        Safe env container request idempotencyKey w) ↔
          Safe env container request idempotencyKey w) := by
    intro hmissing
    obtain ⟨hhealthy, hnone⟩ := hlookup.mp hmissing
    rw [hhealthy]
    exact ⟨fun h => (h.resolve_left Bool.false_ne_true).resolve_left hnone,
      fun h => Or.inr (Or.inr h)⟩
  cases push_cases env container request idempotencyKey w with
  | unread e failed _ after =>
    have hquiet := congrArg World.initiations after
    refine iff_of_true (noOrphan_of_quiet hquiet) ?_
    exact or_assoc.mp (Or.inl (found (by rw [failed]; exact nofun)))
  | existing t hfound _ after =>
    have hquiet := congrArg World.initiations after
    refine iff_of_true (noOrphan_of_quiet hquiet) ?_
    exact or_assoc.mp (Or.inl (found (by rw [hfound]; exact nofun)))
  | declined e missing w₁ raised _ after =>
    obtain ⟨call, hresult, hcalls⟩ := pushAnswer_initiations env container raised
    have hcalls := (congrArg World.initiations after).trans
      (show w₁.initiations = w.initiations ++ [call] from hcalls)
    rw [missed missing, noOrphan_of_call hcalls]
    unfold Safe
    rw [hresult, raised]
    exact ⟨fun h => ⟨h.1, nofun⟩, fun h => ⟨h.1, nofun⟩⟩
  | lost response missing w₁ answered e s failed _ after =>
    rw [missed missing]
    exact noOrphan_of_saved answered failed ((congrArg World.initiations after).trans rfl)
      ((congrArg World.transactions after).trans rfl)
  | recorded response missing w₁ answered t s saved _ after =>
    obtain ⟨events, after⟩ := after
    rw [missed missing]
    exact noOrphan_of_saved answered saved ((congrArg World.initiations after).trans rfl)
      ((congrArg World.transactions after).trans rfl)

end Push

/-! ## An orphan -/

/-- A payment of 10 shillings with a reference of 129 characters. -/
def longReference : InitiatePayment :=
  { payTenShillings with accountReference := String.ofList (List.replicate 129 'a') }

/-- The policy allows it and the provider accepts it, but the table stays empty. -/
theorem orphaned_by_long_reference :
    let container := AppContainer.postgres {} .development MockDarajaPaymentProvider
    let w' := (Prog.run (handle .still container) (executeStkPush longReference "key")
      (start TransactionTable.empty ())).2
    container.paymentService.initiateStkPush Env.still.toRuntime
        ⟨some longReference.phoneNumber, some longReference.amount, longReference.accountReference,
          longReference.description, some "key"⟩ = executeStkPush longReference "key" ∧
      w'.transactions.rows.values.length = 0 ∧
      ¬ NoOrphan longReference "key" (start TransactionTable.empty ()) w' := by
  intro container w'
  have hlong : longReference.accountReference.length = 129 := by
    simp only [longReference, String.length_ofList, List.length_replicate]
  refine ⟨rfl, by decide +kernel, fun h => ?_⟩
  have hmissing : (keyAnswer .still container "key"
      (start TransactionTable.empty () : World _ Unit).store).1 = .ok none := rfl
  obtain ⟨call, -, hcalls⟩ := push_called _ _ longReference hmissing
  refine absurd ((noOrphan_of_call hcalls).mp h).1.accountReference ?_
  omega

end MpesaMcp
