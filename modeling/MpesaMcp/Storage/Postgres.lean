import Mathlib.Data.List.Pairwise
import MpesaMcp.Library.Permuted
import MpesaMcp.Storage.Repositories

/-!
# The Postgres transaction repository

`TransactionTable` is the content of the table that `TransactionModel` declares: every row fits its
columns, and no two rows share a primary key, an idempotency key, a checkout request id or a provider
transaction id. `TransactionModel` has the fields of `PendingTransaction` and
`_to_pending_transaction` copies them one by one, so a row is a `PendingTransaction`.

The repository methods are programs over single database statements (`DatabaseCall`), each of which
the surroundings may fail. A commit that fails leaves the table as it was.
-/

set_option autoImplicit false

namespace MpesaMcp

open Library Python

/-! ## The table -/

/-- What an `Integer` column holds. -/
abbrev Int32Range (n : Int) : Prop := -2147483648 ≤ n ∧ n ≤ 2147483647

/-- The column types of `TransactionModel`. -/
structure ColumnsHold (row : PendingTransaction) : Prop where
  transactionId : row.transactionId.length ≤ 36
  idempotencyKey : ∀ key ∈ row.idempotencyKey, key.length ≤ 128
  provider : row.provider.length ≤ 64
  rail : row.rail.length ≤ 64
  providerTransactionId : ∀ id ∈ row.providerTransactionId, id.length ≤ 128
  providerReference : ∀ reference ∈ row.providerReference, reference.length ≤ 128
  checkoutRequestId : row.checkoutRequestId.length ≤ 128
  merchantRequestId : row.merchantRequestId.length ≤ 128
  phoneNumber : row.phoneNumber.length ≤ 32
  amount : Int32Range row.amount
  accountReference : row.accountReference.length ≤ 128
  description : row.description.length ≤ 255
  resultCode : ∀ code ∈ row.resultCode, Int32Range code
  resultDescription : ∀ text ∈ row.resultDescription, text.length ≤ 255
  mpesaReceiptNumber : ∀ number ∈ row.mpesaReceiptNumber, number.length ≤ 128

instance (row : PendingTransaction) : Decidable (ColumnsHold row) :=
  decidable_of_iff
    (row.transactionId.length ≤ 36 ∧ (∀ key ∈ row.idempotencyKey, key.length ≤ 128) ∧
      row.provider.length ≤ 64 ∧ row.rail.length ≤ 64 ∧
      (∀ id ∈ row.providerTransactionId, id.length ≤ 128) ∧
      (∀ reference ∈ row.providerReference, reference.length ≤ 128) ∧
      row.checkoutRequestId.length ≤ 128 ∧ row.merchantRequestId.length ≤ 128 ∧
      row.phoneNumber.length ≤ 32 ∧ Int32Range row.amount ∧ row.accountReference.length ≤ 128 ∧
      row.description.length ≤ 255 ∧ (∀ code ∈ row.resultCode, Int32Range code) ∧
      (∀ text ∈ row.resultDescription, text.length ≤ 255) ∧
      (∀ number ∈ row.mpesaReceiptNumber, number.length ≤ 128))
    ⟨fun ⟨a, b, c, d, e, f, g, h, i, j, k, l, m, n, o⟩ =>
      ⟨a, b, c, d, e, f, g, h, i, j, k, l, m, n, o⟩,
    fun ⟨a, b, c, d, e, f, g, h, i, j, k, l, m, n, o⟩ =>
      ⟨a, b, c, d, e, f, g, h, i, j, k, l, m, n, o⟩⟩

/-- Two rows that a unique constraint keeps apart; nulls are distinct from each other. -/
def Conflict (r s : PendingTransaction) : Prop :=
  r.transactionId = s.transactionId ∨ r.checkoutRequestId = s.checkoutRequestId ∨
    (r.idempotencyKey.isSome ∧ r.idempotencyKey = s.idempotencyKey) ∨
    (r.providerTransactionId.isSome ∧ r.providerTransactionId = s.providerTransactionId)

instance (r s : PendingTransaction) : Decidable (Conflict r s) := by
  unfold Conflict
  infer_instance

theorem Conflict.symm {r s : PendingTransaction} (h : Conflict r s) : Conflict s r := by
  unfold Conflict at *
  rcases h with h | h | ⟨hs, h⟩ | ⟨hs, h⟩
  · exact Or.inl h.symm
  · exact Or.inr (Or.inl h.symm)
  · exact Or.inr (Or.inr (Or.inl ⟨h ▸ hs, h.symm⟩))
  · exact Or.inr (Or.inr (Or.inr ⟨h ▸ hs, h.symm⟩))

/-- The rows of the table. -/
structure TransactionTable where
  rows : Transactions
  columns : ∀ row ∈ rows.values, ColumnsHold row
  distinct : rows.values.Pairwise fun r s => ¬ Conflict r s

/-- No rows. -/
def TransactionTable.empty : TransactionTable where
  rows := Keyed.empty
  columns := fun _ h => nomatch h
  distinct := List.Pairwise.nil

/-- The error of a value that its column cannot hold. -/
def dataError : Exn := .sqlAlchemyError "value out of range for its column"

/-- The error of a unique constraint. -/
def uniqueViolation : Exn :=
  .integrityError "duplicate key value violates unique constraint"

/-- INSERT: the column types are checked first, then the unique constraints. -/
def TransactionTable.insert (t : TransactionTable) (row : PendingTransaction) :
    Except Exn TransactionTable :=
  if hc : ColumnsHold row then
    if hd : ∀ r ∈ t.rows.values, ¬ Conflict r row then
      .ok {
        rows := t.rows.put row
        columns := fun r hr => by
          rcases Keyed.mem_values_put.mp hr with rfl | ⟨hr, -⟩
          · exact hc
          · exact t.columns r hr
        distinct := by
          have hnone : t.rows.get row.transactionId = none :=
            Keyed.get_eq_none_iff.mpr fun r hr he => hd r hr (Or.inl he)
          rw [Keyed.put_values_of_none hnone, List.pairwise_append]
          refine ⟨t.distinct, List.pairwise_singleton _ _, fun r hr s hs => ?_⟩
          rw [List.mem_singleton.mp hs]
          exact hd r hr }
    else .error uniqueViolation
  else .error dataError

/-- The columns an UPDATE writes are those whose assigned value differs from the loaded one. -/
def writeChanges (loaded assigned current : PendingTransaction) : PendingTransaction :=
  { current with
    status := if assigned.status = loaded.status then current.status else assigned.status
    resultCode :=
      if assigned.resultCode = loaded.resultCode then current.resultCode else assigned.resultCode
    resultDescription :=
      if assigned.resultDescription = loaded.resultDescription then current.resultDescription
      else assigned.resultDescription
    mpesaReceiptNumber :=
      if assigned.mpesaReceiptNumber = loaded.mpesaReceiptNumber then current.mpesaReceiptNumber
      else assigned.mpesaReceiptNumber
    updatedAt :=
      if assigned.updatedAt = loaded.updatedAt then current.updatedAt else assigned.updatedAt }

/-- UPDATE of the row with the loaded primary key. -/
def TransactionTable.update (t : TransactionTable) (loaded assigned : PendingTransaction) :
    Except Exn TransactionTable :=
  match hg : t.rows.get loaded.transactionId with
  | none => .error (.sqlAlchemyError "the row to update was not found")
  | some current =>
    if hc : ColumnsHold (writeChanges loaded assigned current) then
      .ok {
        rows := t.rows.put (writeChanges loaded assigned current)
        columns := fun r hr => by
          rcases Keyed.mem_values_put.mp hr with rfl | ⟨hr, -⟩
          · exact hc
          · exact t.columns r hr
        distinct := by
          have hkey : current.transactionId = loaded.transactionId := Keyed.key_of_get hg
          obtain ⟨pre, post, hsplit, hput⟩ :=
            Keyed.put_values_of_some (d := t.rows)
              (a := writeChanges loaded assigned current) (hkey ▸ hg)
          have hdistinct := t.distinct
          rw [hsplit, List.pairwise_append, List.pairwise_cons] at hdistinct
          obtain ⟨hpre, ⟨hcur, hpost⟩, hcross⟩ := hdistinct
          rw [hput, List.pairwise_append, List.pairwise_cons]
          refine ⟨hpre, ⟨hcur, hpost⟩, fun r hr s hs => ?_⟩
          rcases List.mem_cons.mp hs with rfl | hs
          · exact fun hconf => hcross r hr current List.mem_cons_self hconf
          · exact hcross r hr s (List.mem_cons_of_mem _ hs) }
    else .error dataError

/-- Two stored rows that a unique constraint would keep apart are one row. -/
theorem TransactionTable.eq_of_conflict (t : TransactionTable) {r s : PendingTransaction}
    (hr : r ∈ t.rows.values) (hs : s ∈ t.rows.values) (h : Conflict r s) : r = s := by
  have : Std.Symm fun r s : PendingTransaction => ¬ Conflict r s := ⟨fun _ _ h hc => h hc.symm⟩
  by_contra hne
  exact t.distinct.forall hr hs hne h

/-- How the database orders the rows of a SELECT that leaves their order open. -/
structure RowOrder where
  scan : List PendingTransaction → List PendingTransaction
  perm : ∀ rows, (scan rows).Perm rows

/-- The same rows, as a SELECT meets them. -/
def TransactionTable.arrange (t : TransactionTable) (order : RowOrder) : TransactionTable where
  rows := t.rows.arrange (order.scan t.rows.values) (order.perm _)
  columns row hrow := t.columns row ((order.perm _).mem_iff.mp hrow)
  distinct := (order.perm _).pairwise_iff (fun h hc => h hc.symm) |>.mpr t.distinct

/-! ## Statements -/

/-- One request of a repository method to its surroundings. -/
inductive DatabaseCall
  | now
  | uuid4
  /-- `session.get(TransactionModel, transaction_id)`. -/
  | get (transactionId : String)
  /-- `SELECT ... WHERE checkout_request_id = ...`, first row. -/
  | selectCheckoutRequestId (checkoutRequestId : String)
  /-- `SELECT ... WHERE idempotency_key = ...`, first row. -/
  | selectIdempotencyKey (idempotencyKey : String)
  | selectAll
  /-- `SELECT ... ORDER BY created_at DESC LIMIT ...`. -/
  | selectRecent (limit : Int)
  | selectStatus (status : String)
  /-- `SELECT ... WHERE created_at >= start AND created_at <= end`. -/
  | selectCreatedBetween (start stop : Int)
  /-- `session.add(model)` and `session.commit()`. -/
  | commitInsert (row : PendingTransaction)
  /-- `session.commit()` of a loaded row with assigned attributes. -/
  | commitUpdate (loaded assigned : PendingTransaction)
  /-- `session.refresh(model)`. -/
  | refresh (transactionId : String)

/-- What each request returns. -/
abbrev DatabaseCall.Answer : DatabaseCall → Type
  | .now => Datetime
  | .uuid4 => String
  | .get _ => Option PendingTransaction
  | .selectCheckoutRequestId _ => Option PendingTransaction
  | .selectIdempotencyKey _ => Option PendingTransaction
  | .selectAll => List PendingTransaction
  | .selectRecent _ => List PendingTransaction
  | .selectStatus _ => List PendingTransaction
  | .selectCreatedBetween _ _ => List PendingTransaction
  | .commitInsert _ => Unit
  | .commitUpdate _ _ => Unit
  | .refresh _ => PendingTransaction

namespace TransactionTable

/-- A statement that the surroundings do not fail. -/
def execute (t : TransactionTable) : (c : DatabaseCall) → Ambient → Env →
    Except Exn c.Answer × Ambient × TransactionTable
  | .now, a, env => (.ok (a.now env).1, (a.now env).2, t)
  | .uuid4, a, env => (.ok (a.uuid4 env).1, (a.uuid4 env).2, t)
  | .get transactionId, a, _ => (.ok (t.rows.get transactionId), a, t)
  | .selectCheckoutRequestId checkoutRequestId, a, _ =>
    (.ok (t.rows.values.find? fun r => decide (r.checkoutRequestId = checkoutRequestId)), a, t)
  | .selectIdempotencyKey idempotencyKey, a, _ =>
    (.ok (t.rows.values.find? fun r => decide (r.idempotencyKey = some idempotencyKey)), a, t)
  | .selectAll, a, _ => (.ok t.rows.values, a, t)
  | .selectRecent limit, a, _ =>
    if 0 ≤ limit then
      (.ok ((t.rows.values.mergeSort fun r s => decide (s.createdAt ≤ r.createdAt)).take
        limit.toNat), a, t)
    else (.error (.sqlAlchemyError "LIMIT must not be negative"), a, t)
  | .selectStatus status, a, _ =>
    (.ok (t.rows.values.filter fun r => decide (r.status.value = status)), a, t)
  | .selectCreatedBetween start stop, a, _ =>
    (.ok (t.rows.values.filter fun r => decide (start ≤ r.createdAt.1 ∧ r.createdAt.1 ≤ stop)), a, t)
  | .commitInsert row, a, _ =>
    match t.insert row with
    | .ok t' => (.ok (), a, t')
    | .error e => (.error e, a, t)
  | .commitUpdate loaded assigned, a, _ =>
    match t.update loaded assigned with
    | .ok t' => (.ok (), a, t')
    | .error e => (.error e, a, t)
  | .refresh transactionId, a, _ =>
    match t.rows.get transactionId with
    | some row => (.ok row, a, t)
    | none => (.error (.sqlAlchemyError "Could not refresh instance"), a, t)

/-- A request is no database statement where it only reads the clock or draws an identifier. -/
def IsStatement : DatabaseCall → Bool
  | .now => false
  | .uuid4 => false
  | _ => true

/-- The database: every statement may fail without effect. -/
def answer (env : Env) : Handler Exn DatabaseCall.Answer (Ambient × TransactionTable)
  | c, s =>
    if IsStatement c then
      if (s.1.statement env).1 then
        (.error (.sqlAlchemyError "the database did not answer"), (s.1.statement env).2, s.2)
      else s.2.execute c (s.1.statement env).2 env
    else s.2.execute c s.1 env

theorem forward_execute (t : TransactionTable) (c : DatabaseCall) (a : Ambient) (env : Env) :
    a.Forward (t.execute c a env).2.1 := by
  cases c with
  | now => exact a.forward_now env
  | uuid4 => exact a.forward_uuid4 env
  | selectRecent limit =>
    simp only [execute]
    split <;> exact .refl a
  | commitInsert row =>
    simp only [execute]
    split <;> exact .refl a
  | commitUpdate loaded assigned =>
    simp only [execute]
    split <;> exact .refl a
  | refresh transactionId =>
    simp only [execute]
    split <;> exact .refl a
  | _ => exact .refl a

theorem forward_answer (env : Env) (c : DatabaseCall) (a : Ambient) (t : TransactionTable) :
    a.Forward (answer env c (a, t)).2.1 := by
  simp only [answer]
  split
  next =>
    split
    next => exact a.forward_statement env
    next => exact (a.forward_statement env).trans (forward_execute _ _ _ _)
  next => exact forward_execute _ _ _ _

end TransactionTable

/-! ## The repository methods -/

namespace PostgresTransactionRepository

/-- Run one request. -/
def query (c : DatabaseCall) : Prog Exn DatabaseCall.Answer c.Answer := Prog.send c

/-- `pattern in text`. -/
def containsText (text : List Char) (pattern : String) : Bool :=
  text.tails.any fun rest => pattern.toList.isPrefixOf rest

/-- `_map_integrity_error`. -/
def mapIntegrityError (message : String) : Exn :=
  let message := message.toList.map Char.toLower
  if containsText message "unique" || containsText message "duplicate"
      || containsText message "uq_transactions"
      || containsText message "ix_transactions_idempotency_key" then
    .duplicateTransactionIntegrity "Transaction uniqueness constraint violated."
  else .transactionIntegrity "Transaction integrity constraint violated."

/-- `except SQLAlchemyError`, of which `IntegrityError` is a subclass. -/
def unavailable : Exn → Exn
  | .integrityError _ => .infrastructureUnavailable "Transaction storage is unavailable."
  | .sqlAlchemyError _ => .infrastructureUnavailable "Transaction storage is unavailable."
  | e => e

/-- `except IntegrityError` before `except SQLAlchemyError`. -/
def integrityOrUnavailable : Exn → Exn
  | .integrityError message => mapIntegrityError message
  | e => unavailable e

/-- The refresh after the commit stands outside of the `try`. -/
def savePendingTransaction (args : SavePendingTransaction) :
    Prog Exn DatabaseCall.Answer PendingTransaction := do
  let now ← query .now
  let transactionId ← query .uuid4
  let model := args.record transactionId now now
  (query (.commitInsert model)).translate integrityOrUnavailable
  query (.refresh transactionId)

def getTransaction (transactionId : String) :
    Prog Exn DatabaseCall.Answer (Option PendingTransaction) :=
  (query (.get transactionId)).translate unavailable

def findByCheckoutRequestId (checkoutRequestId : String) :
    Prog Exn DatabaseCall.Answer (Option PendingTransaction) :=
  (query (.selectCheckoutRequestId checkoutRequestId)).translate unavailable

def findByIdempotencyKey (idempotencyKey : String) :
    Prog Exn DatabaseCall.Answer (Option PendingTransaction) :=
  (query (.selectIdempotencyKey idempotencyKey)).translate unavailable

/-- The body of the `try` in `update_transaction_status`. -/
def updateRow (args : UpdateTransactionStatus) :
    Prog Exn DatabaseCall.Answer (Option PendingTransaction) := do
  match ← query (.selectCheckoutRequestId args.checkoutRequestId) with
  | none => pure none
  | some model =>
    match validateTransition model.status args.status with
    | .error e => .raise e
    | .ok status =>
      let now ← query .now
      query (.commitUpdate model (args.apply model status now))
      some <$> query (.refresh model.transactionId)

def updateTransactionStatus (args : UpdateTransactionStatus) :
    Prog Exn DatabaseCall.Answer (Option PendingTransaction) :=
  (updateRow args).translate integrityOrUnavailable

def listTransactions : Prog Exn DatabaseCall.Answer (List PendingTransaction) :=
  (query .selectAll).translate unavailable

def listRecentTransactions (limit : Int) : Prog Exn DatabaseCall.Answer (List PendingTransaction) :=
  (query (.selectRecent limit)).translate unavailable

def listTransactionsByStatus (status : String) :
    Prog Exn DatabaseCall.Answer (List PendingTransaction) :=
  (query (.selectStatus status)).translate unavailable

/-- From the first to the last microsecond of the day. -/
def listTransactionsForDate (targetDate : Date) :
    Prog Exn DatabaseCall.Answer (List PendingTransaction) :=
  (query (.selectCreatedBetween (targetDate * 86400000000)
    (targetDate * 86400000000 + 86399999999))).translate unavailable

/-- The program of a method. -/
def method : (m : TransactionRepositoryProtocol) → Prog Exn DatabaseCall.Answer m.Answer
  | .savePendingTransaction args => savePendingTransaction args
  | .getTransaction transactionId => getTransaction transactionId
  | .findByCheckoutRequestId checkoutRequestId => findByCheckoutRequestId checkoutRequestId
  | .findByIdempotencyKey idempotencyKey => findByIdempotencyKey idempotencyKey
  | .updateTransactionStatus args => updateTransactionStatus args
  | .listTransactions => listTransactions
  | .listRecentTransactions limit => listRecentTransactions limit
  | .listTransactionsByStatus status => listTransactionsByStatus status
  | .listTransactionsForDate targetDate => listTransactionsForDate targetDate

end PostgresTransactionRepository

/-- PostgreSQL-backed transaction repository; each method call runs its statements to the end. -/
def PostgresTransactionRepository : TransactionRepository TransactionTable where
  answer env m s := Prog.run (TransactionTable.answer env)
    (PostgresTransactionRepository.method m) s
  forward env m a t := by
    refine Prog.run_related (P := fun _ => True) (R := fun s s' => s.1.Forward s'.1)
      (fun s => .refl s.1) (fun _ _ _ => .trans)
      (fun c _ s => TransactionTable.forward_answer env c s.1 s.2) (Prog.sends_true _) (a, t)

end MpesaMcp
