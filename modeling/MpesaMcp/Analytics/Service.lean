import MpesaMcp.App.Messages

/-!
# Analytics service

Read-only summaries of the stored transactions.
-/

set_option autoImplicit false

namespace MpesaMcp

open Library Python

/-- Daily M-Pesa transaction analytics summary. -/
structure DailyAnalyticsSummary where
  date : Date
  totalTransactions : Nat
  completedTransactions : Nat
  failedTransactions : Nat
  pendingTransactions : Nat
  totalRevenue : Int
deriving DecidableEq

namespace AnalyticsService

/-- The transactions with a status. -/
def withStatus (status : TransactionStatus) (transactions : List PendingTransaction) :
    List PendingTransaction :=
  transactions.filter fun transaction => decide (transaction.status = status)

/-- The summary of the transactions of one day. -/
def summarize (date : Date) (transactions : List PendingTransaction) : DailyAnalyticsSummary where
  date := date
  totalTransactions := transactions.length
  completedTransactions := (withStatus .completed transactions).length
  failedTransactions := (withStatus .failed transactions).length
  pendingTransactions := (withStatus .pending transactions).length
  totalRevenue := ((withStatus .completed transactions).map PendingTransaction.amount).sum

/-- Return today's transaction summary. -/
def getTodaySummary : App DailyAnalyticsSummary := do
  let now ← ask .now
  let transactions ← ask (.transactions (.listTransactionsForDate (Datetime.date now)))
  pure (summarize (Datetime.date now) transactions)

/-- Return failed transactions. -/
def getFailedTransactions : App (List PendingTransaction) :=
  ask (.transactions (.listTransactionsByStatus "failed"))

end AnalyticsService

end MpesaMcp
