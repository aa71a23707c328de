import MpesaMcp.Laws.RepositoryAgreement

/-!
# Repositories that list their rows

What reconciliation and analytics ask of a repository: while it is available, a listing returns its rows,
in whatever order, and changes none of them. The in-memory repository is always available; Postgres is
where the statement of the listing does not fail. Both mean the same by the transactions of a day.
-/

set_option autoImplicit false

namespace MpesaMcp

open Library Python

/-- The answer lists these transactions, in whatever order, and leaves the store as it was. -/
structure Lists {τ : Type} (answer : Except Exn (List PendingTransaction) × Ambient × τ) (store : τ)
    (rows listed : List PendingTransaction) : Prop where
  output : answer.1 = .ok listed
  perm : listed.Perm rows
  same : answer.2.2 = store

/-- A repository whose listings show the rows of its store. -/
structure ListedRows {τ : Type} (repository : TransactionRepository τ) where
  rows : τ → Transactions
  Available : Env → Ambient → Prop
  all : ∀ env a d, Available env a → ∃ listed,
    Lists (repository.answer env .listTransactions (a, d)) d (rows d).values listed
  ofDate : ∀ env a d day, Available env a → ∃ listed,
    Lists (repository.answer env (.listTransactionsForDate day) (a, d)) d
      ((rows d).values.filter fun t => decide (t.createdAt.date = day)) listed

def InMemoryTransactionRepository.listedRows : ListedRows InMemoryTransactionRepository where
  rows := id
  Available _ _ := True
  all _ _ d _ := ⟨d.values, rfl, .refl _, rfl⟩
  ofDate _ _ _ _ _ := ⟨_, rfl, .refl _, rfl⟩

def PostgresTransactionRepository.listedRows : ListedRows PostgresTransactionRepository where
  rows := TransactionTable.rows
  Available env a := env.databaseFails a.statements = false
  all env a t answered := by
    have hrun : PostgresTransactionRepository.answer env .listTransactions (a, t) =
        (.ok t.rows.values, a.after 1, t) := run_select env a t answered rfl rfl
    rw [hrun]
    exact ⟨_, rfl, .refl _, rfl⟩
  ofDate env a t day answered := by
    have hrun : PostgresTransactionRepository.answer env (.listTransactionsForDate day) (a, t) =
        (.ok (t.rows.values.filter fun r => decide (day * 86400000000 ≤ r.createdAt.1 ∧
          r.createdAt.1 ≤ day * 86400000000 + 86399999999)), a.after 1, t) :=
      run_select env a t answered rfl rfl
    rw [hrun]
    refine ⟨_, rfl, ?_, rfl⟩
    simp only [← date_eq_iff]
    exact .refl _

end MpesaMcp
