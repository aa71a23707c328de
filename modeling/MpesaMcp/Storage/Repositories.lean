import Mathlib.Data.List.Sort
import MpesaMcp.Library.Keyed
import MpesaMcp.Library.Prog
import MpesaMcp.Transactions.StateMachine

/-!
# Transaction persistence: the interface and the in-memory implementation

`TransactionRepositoryProtocol` is the repository interface, one constructor per method. An
implementation answers it over a store of its own (`TransactionRepository`), reading the clock and
drawing identifiers from its surroundings.

`InMemoryTransactionRepository` is an insertion-ordered dictionary keyed by transaction id. Its
lookups by another field scan the values and take the first match.
-/

set_option autoImplicit false

namespace MpesaMcp

open Library Python

/-- A transaction record. -/
structure PendingTransaction where
  transactionId : String
  idempotencyKey : Option String := none
  provider : String := "daraja"
  rail : String := "mpesa"
  providerTransactionId : Option String := none
  providerReference : Option String := none
  phoneNumber : String
  amount : Int
  accountReference : String
  description : String
  checkoutRequestId : String
  merchantRequestId : String
  createdAt : Datetime
  updatedAt : Datetime
  status : TransactionStatus := .pending
  resultCode : Option Int := none
  resultDescription : Option String := none
  mpesaReceiptNumber : Option String := none
deriving DecidableEq

/-- The arguments of `save_pending_transaction`. -/
structure SavePendingTransaction where
  phoneNumber : String
  amount : Int
  accountReference : String
  description : String
  checkoutRequestId : String
  merchantRequestId : String
  idempotencyKey : Option String := none
  provider : String := "daraja"
  rail : String := "mpesa"
  providerTransactionId : Option String := none
  providerReference : Option String := none
deriving DecidableEq

/-- The arguments of `update_transaction_status`. -/
structure UpdateTransactionStatus where
  checkoutRequestId : String
  status : String
  resultCode : Int
  resultDescription : String
  mpesaReceiptNumber : Option String := none
deriving DecidableEq

/-- The pending record a save creates. -/
def SavePendingTransaction.record (args : SavePendingTransaction) (transactionId : String)
    (createdAt updatedAt : Datetime) : PendingTransaction where
  transactionId := transactionId
  idempotencyKey := args.idempotencyKey
  provider := args.provider
  rail := args.rail
  providerTransactionId := args.providerTransactionId
  providerReference := args.providerReference
  phoneNumber := args.phoneNumber
  amount := args.amount
  accountReference := args.accountReference
  description := args.description
  checkoutRequestId := args.checkoutRequestId
  merchantRequestId := args.merchantRequestId
  createdAt := createdAt
  updatedAt := updatedAt

/-- The record an update leaves, once its status is validated. -/
def UpdateTransactionStatus.apply (args : UpdateTransactionStatus) (transaction : PendingTransaction)
    (status : TransactionStatus) (now : Datetime) : PendingTransaction :=
  { transaction with
    status := status
    resultCode := some args.resultCode
    resultDescription := some args.resultDescription
    mpesaReceiptNumber := args.mpesaReceiptNumber
    updatedAt := now }

/-- Interface for transaction persistence. -/
inductive TransactionRepositoryProtocol
  | savePendingTransaction (args : SavePendingTransaction)
  | getTransaction (transactionId : String)
  | findByCheckoutRequestId (checkoutRequestId : String)
  | findByIdempotencyKey (idempotencyKey : String)
  | updateTransactionStatus (args : UpdateTransactionStatus)
  | listTransactions
  | listRecentTransactions (limit : Int)
  | listTransactionsByStatus (status : String)
  | listTransactionsForDate (targetDate : Date)

/-- What each method returns. -/
abbrev TransactionRepositoryProtocol.Answer : TransactionRepositoryProtocol → Type
  | .savePendingTransaction _ => PendingTransaction
  | .getTransaction _ => Option PendingTransaction
  | .findByCheckoutRequestId _ => Option PendingTransaction
  | .findByIdempotencyKey _ => Option PendingTransaction
  | .updateTransactionStatus _ => Option PendingTransaction
  | .listTransactions => List PendingTransaction
  | .listRecentTransactions _ => List PendingTransaction
  | .listTransactionsByStatus _ => List PendingTransaction
  | .listTransactionsForDate _ => List PendingTransaction

/-- An implementation of the interface over a store `τ`. -/
structure TransactionRepository (τ : Type) where
  answer : Env → Handler Exn TransactionRepositoryProtocol.Answer (Ambient × τ)
  forward : ∀ (env : Env) m (a : Ambient) store, a.Forward (answer env m (a, store)).2.1

/-- The dictionary of transactions by id. -/
abbrev Transactions := Keyed PendingTransaction.transactionId

/-- `values[:limit]`; a negative limit counts from the end. -/
def takeLimit {α : Type} (limit : Int) (values : List α) : List α :=
  if 0 ≤ limit then values.take limit.toNat else values.take (values.length - (-limit).toNat)

namespace InMemoryTransactionRepository

def savePendingTransaction (env : Env) (args : SavePendingTransaction) (a : Ambient)
    (transactions : Transactions) : PendingTransaction × Ambient × Transactions :=
  let (transactionId, a) := a.uuid4 env
  let (createdAt, a) := a.now env
  let (updatedAt, a) := a.now env
  let transaction := args.record transactionId createdAt updatedAt
  (transaction, a, transactions.put transaction)

def getTransaction (transactionId : String) (transactions : Transactions) :
    Option PendingTransaction :=
  transactions.get transactionId

def findByCheckoutRequestId (checkoutRequestId : String) (transactions : Transactions) :
    Option PendingTransaction :=
  transactions.values.find? fun transaction =>
    decide (transaction.checkoutRequestId = checkoutRequestId)

def findByIdempotencyKey (idempotencyKey : String) (transactions : Transactions) :
    Option PendingTransaction :=
  transactions.values.find? fun transaction =>
    decide (transaction.idempotencyKey = some idempotencyKey)

def updateTransactionStatus (env : Env) (args : UpdateTransactionStatus) (a : Ambient)
    (transactions : Transactions) :
    Except Exn (Option PendingTransaction) × Ambient × Transactions :=
  match findByCheckoutRequestId args.checkoutRequestId transactions with
  | none => (.ok none, a, transactions)
  | some transaction =>
    match validateTransition transaction.status args.status with
    | .error e => (.error e, a, transactions)
    | .ok status =>
      let (now, a) := a.now env
      let updatedTransaction := args.apply transaction status now
      (.ok (some updatedTransaction), a, transactions.put updatedTransaction)

def listTransactions (transactions : Transactions) : List PendingTransaction := transactions.values

/-- `sorted(..., key=created_at, reverse=True)[:limit]`; the sort is stable. -/
def listRecentTransactions (limit : Int) (transactions : Transactions) : List PendingTransaction :=
  takeLimit limit
    (transactions.values.mergeSort fun s t => decide (t.createdAt ≤ s.createdAt))

def listTransactionsByStatus (status : String) (transactions : Transactions) :
    List PendingTransaction :=
  transactions.values.filter fun transaction => decide (transaction.status.value = status)

def listTransactionsForDate (targetDate : Date) (transactions : Transactions) :
    List PendingTransaction :=
  transactions.values.filter fun transaction => decide (transaction.createdAt.date = targetDate)

/-- One method call. -/
def answer (env : Env) : Handler Exn TransactionRepositoryProtocol.Answer (Ambient × Transactions)
  | .savePendingTransaction args, (a, transactions) =>
    let (transaction, a, transactions) := savePendingTransaction env args a transactions
    (.ok transaction, a, transactions)
  | .getTransaction transactionId, (a, transactions) =>
    (.ok (getTransaction transactionId transactions), a, transactions)
  | .findByCheckoutRequestId checkoutRequestId, (a, transactions) =>
    (.ok (findByCheckoutRequestId checkoutRequestId transactions), a, transactions)
  | .findByIdempotencyKey idempotencyKey, (a, transactions) =>
    (.ok (findByIdempotencyKey idempotencyKey transactions), a, transactions)
  | .updateTransactionStatus args, (a, transactions) =>
    updateTransactionStatus env args a transactions
  | .listTransactions, (a, transactions) => (.ok (listTransactions transactions), a, transactions)
  | .listRecentTransactions limit, (a, transactions) =>
    (.ok (listRecentTransactions limit transactions), a, transactions)
  | .listTransactionsByStatus status, (a, transactions) =>
    (.ok (listTransactionsByStatus status transactions), a, transactions)
  | .listTransactionsForDate targetDate, (a, transactions) =>
    (.ok (listTransactionsForDate targetDate transactions), a, transactions)

theorem forward_answer (env : Env) (m : TransactionRepositoryProtocol) (a : Ambient)
    (transactions : Transactions) : a.Forward (answer env m (a, transactions)).2.1 := by
  cases m with
  | savePendingTransaction args =>
    exact (a.forward_uuid4 env).trans ((Ambient.forward_now env _).trans (Ambient.forward_now env _))
  | updateTransactionStatus args =>
    simp only [answer, updateTransactionStatus]
    split
    next => exact .refl a
    next =>
      split
      next => exact .refl a
      next => exact a.forward_now env
  | _ => exact .refl a

end InMemoryTransactionRepository

/-- In-memory transaction repository for tests and local development. -/
def InMemoryTransactionRepository : TransactionRepository Transactions where
  answer := InMemoryTransactionRepository.answer
  forward := InMemoryTransactionRepository.forward_answer

end MpesaMcp
