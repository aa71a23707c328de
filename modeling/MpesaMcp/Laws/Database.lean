import MpesaMcp.Laws.TransactionSteps

/-!
# What the Postgres repository does, statement by statement

One lemma for each method the callback handler and the payment service call: which of its statements
fails decides what it answers, and whether the table has changed.
-/

set_option autoImplicit false

namespace MpesaMcp

open Library Python

/-- The surroundings after some number of database statements. -/
def Ambient.after (n : Nat) (a : Ambient) : Ambient := { a with statements := a.statements + n }

/-- What callers see of a failed statement. -/
def storageUnavailable : Exn := .infrastructureUnavailable "Transaction storage is unavailable."

variable (env : Env) (a : Ambient) (t : TransactionTable)

/-! ## Single statements -/

theorem answer_statement {c : DatabaseCall} (h : TransactionTable.IsStatement c = true) :
    TransactionTable.answer env c (a, t) =
      if env.databaseFails a.statements then
        (.error (.sqlAlchemyError "the database did not answer"), a.after 1, t)
      else t.execute c (a.after 1) env := by
  simp only [TransactionTable.answer, h, if_true, Ambient.statement]
  rfl

theorem run_query (c : DatabaseCall) (s : Ambient × TransactionTable) :
    @Prog.run Exn DatabaseCall DatabaseCall.Answer (no_index c.Answer) _
      (TransactionTable.answer env) (PostgresTransactionRepository.query c) s =
        TransactionTable.answer env c s := Prog.run_send _ c s

/-- A refresh of a stored row. -/
theorem answer_refresh {id : String} {row : PendingTransaction} (stored : t.rows.get id = some row) :
    TransactionTable.answer env (.refresh id) (a, t) =
      if env.databaseFails a.statements then
        (.error (.sqlAlchemyError "the database did not answer"), a.after 1, t)
      else (.ok row, a.after 1, t) := by
  rw [answer_statement env a t rfl]
  simp only [TransactionTable.execute, stored]

/-- A row is the one that its checkout request id finds. -/
theorem TransactionTable.firstMatch_of_get (t : TransactionTable) {id : String}
    {row : PendingTransaction} (stored : t.rows.get id = some row) :
    firstMatch row.checkoutRequestId t.rows = some row := by
  have hrow := Keyed.mem_of_get stored
  cases hfound : firstMatch row.checkoutRequestId t.rows with
  | none =>
    have hnone := List.find?_eq_none.mp hfound row hrow
    exact absurd (decide_eq_true rfl) hnone
  | some u =>
    obtain ⟨hu, hsame⟩ := get_of_firstMatch hfound
    rw [t.eq_of_conflict (Keyed.mem_of_get hu) hrow (Or.inr (Or.inl hsame))]

/-- An UPDATE whose row fits its columns. -/
theorem TransactionTable.update_ok {t : TransactionTable} {loaded assigned current : PendingTransaction}
    (stored : t.rows.get loaded.transactionId = some current)
    (fits : ColumnsHold (writeChanges loaded assigned current)) :
    ∃ t', t.update loaded assigned = .ok t' ∧
      t'.rows = t.rows.put (writeChanges loaded assigned current) := by
  unfold TransactionTable.update
  split
  next hnone => cases hnone.symm.trans stored
  next row hsome =>
    cases hsome.symm.trans stored
    rw [dif_pos fits]
    exact ⟨_, rfl, rfl⟩

/-- An UPDATE of a stored row writes the assigned row, where it fits its columns. -/
theorem update_stored {t : TransactionTable} {row assigned : PendingTransaction}
    (stored : t.rows.get row.transactionId = some row)
    (assignment : writeChanges row assigned row = assigned) :
    (ColumnsHold assigned ∧ ∃ t', t.update row assigned = .ok t' ∧ t'.rows = t.rows.put assigned) ∨
    (¬ ColumnsHold assigned ∧ t.update row assigned = .error dataError) := by
  by_cases hc : ColumnsHold assigned
  · left
    refine ⟨hc, ?_⟩
    obtain ⟨t', hupdate, hput⟩ := TransactionTable.update_ok stored (assignment.symm ▸ hc)
    exact ⟨t', hupdate, hput.trans (congrArg t.rows.put assignment)⟩
  · right
    refine ⟨hc, ?_⟩
    unfold TransactionTable.update
    split
    next hnone => cases hnone.symm.trans stored
    next current hsome =>
      cases hsome.symm.trans stored
      rw [dif_neg (fun h => hc (assignment ▸ h))]

/-- A column whose assigned value is the loaded one need not be written. -/
theorem assigned_or_loaded {α : Type} (assigned loaded : α) [Decidable (assigned = loaded)] :
    (if assigned = loaded then loaded else assigned) = assigned := by
  split
  next h => exact h.symm
  next => rfl

/-- An UPDATE of a row as it was loaded writes every assigned attribute. -/
theorem writeChanges_self (row assigned : PendingTransaction) :
    writeChanges row assigned row = { row with
      status := assigned.status
      resultCode := assigned.resultCode
      resultDescription := assigned.resultDescription
      mpesaReceiptNumber := assigned.mpesaReceiptNumber
      updatedAt := assigned.updatedAt } := by
  simp only [writeChanges, assigned_or_loaded]

/-- An INSERT stores a row that fits its columns and conflicts with none; otherwise the database raises
the error for what was violated, and stores nothing. -/
theorem insert_cases (row : PendingTransaction) :
    (¬ ColumnsHold row ∧ t.insert row = .error dataError) ∨
    (ColumnsHold row ∧ (∃ r ∈ t.rows.values, Conflict r row) ∧ t.insert row = .error uniqueViolation) ∨
    (ColumnsHold row ∧ (∀ r ∈ t.rows.values, ¬ Conflict r row) ∧
      ∃ t', t.insert row = .ok t' ∧ t'.rows = t.rows.put row) := by
  unfold TransactionTable.insert
  by_cases hc : ColumnsHold row
  · rw [dif_pos hc]
    by_cases hd : ∀ r ∈ t.rows.values, ¬ Conflict r row
    · rw [dif_pos hd]
      exact Or.inr (Or.inr ⟨hc, hd, _, rfl, rfl⟩)
    · rw [dif_neg hd]
      refine Or.inr (Or.inl ⟨hc, ?_, rfl⟩)
      by_contra hnone
      exact hd fun r hr hconflict => hnone ⟨r, hr, hconflict⟩
  · rw [dif_neg hc]
    exact Or.inl ⟨hc, rfl⟩

/-! ## Methods -/

/-- The lookup of a callback: its statement fails, or it finds the first match. -/
theorem postgres_find (checkoutRequestId : String) :
    PostgresTransactionRepository.answer env (.findByCheckoutRequestId checkoutRequestId) (a, t) =
      if env.databaseFails a.statements then (.error storageUnavailable, a.after 1, t)
      else (.ok (firstMatch checkoutRequestId t.rows), a.after 1, t) := by
  show Prog.run _ (PostgresTransactionRepository.findByCheckoutRequestId checkoutRequestId) _ = _
  rw [PostgresTransactionRepository.findByCheckoutRequestId, Prog.run_translate,
    run_query, answer_statement env a t rfl]
  split <;> rfl

/-- The lookup of a payment, likewise. -/
theorem postgres_findKey (idempotencyKey : String) :
    PostgresTransactionRepository.answer env (.findByIdempotencyKey idempotencyKey) (a, t) =
      if env.databaseFails a.statements then (.error storageUnavailable, a.after 1, t)
      else (.ok (InMemoryTransactionRepository.findByIdempotencyKey idempotencyKey t.rows),
        a.after 1, t) := by
  show Prog.run _ (PostgresTransactionRepository.findByIdempotencyKey idempotencyKey) _ = _
  rw [PostgresTransactionRepository.findByIdempotencyKey, Prog.run_translate,
    run_query, answer_statement env a t rfl]
  split <;> rfl

/-- The commit of an update and the refresh behind it. -/
def commitAndRefresh (row assigned : PendingTransaction) :
    Prog Exn DatabaseCall.Answer (Option PendingTransaction) := do
  PostgresTransactionRepository.query (.commitUpdate row assigned)
  some <$> PostgresTransactionRepository.query (.refresh row.transactionId)

/-- Where the table changed, only the refresh can still fail: the commit stays, and the caller sees the
exception of the SELECT behind it. -/
theorem run_commitAndRefresh (row assigned : PendingTransaction)
    (stored : t.rows.get row.transactionId = some row)
    (assignment : writeChanges row assigned row = assigned)
    (sameKey : assigned.transactionId = row.transactionId) :
    let r := Prog.run (TransactionTable.answer env) (commitAndRefresh row assigned) (a, t)
    (∃ message, r.1 = .error (.sqlAlchemyError message) ∧ r.2.2 = t ∧
      ¬ (env.databaseFails a.statements = false ∧ ColumnsHold assigned)) ∨
    (env.databaseFails a.statements = false ∧ ColumnsHold assigned ∧
      r.2.2.rows = t.rows.put assigned ∧
      (env.databaseFails (a.statements + 1) = true ∧
          (∃ message, r.1 = .error (.sqlAlchemyError message)) ∨
        env.databaseFails (a.statements + 1) = false ∧ r.1 = .ok (some assigned))) := by
  intro r
  have hr : r = _ := Prog.run_bind _ _ _ _
  simp only [run_query, Prog.run_map] at hr
  rw [answer_statement env a t rfl] at hr
  cases hfail : env.databaseFails a.statements with
  | true =>
    rw [hfail, if_pos rfl] at hr
    rw [hr]
    exact Or.inl ⟨_, rfl, rfl, fun h => absurd h.1 (by decide)⟩
  | false =>
    rw [hfail, if_neg Bool.false_ne_true] at hr
    rcases update_stored stored assignment with ⟨hfits, t', hupdate, hrows⟩ | ⟨hunfit, hupdate⟩
    · have hcommit : t.execute (.commitUpdate row assigned) (a.after 1) env =
          (.ok (), a.after 1, t') := by
        simp only [TransactionTable.execute, hupdate]
      have hstored : t'.rows.get row.transactionId = some assigned := by
        rw [hrows]
        exact Keyed.get_put_of_eq _ sameKey
      rw [hcommit] at hr
      simp only [answer_refresh env (a.after 1) t' hstored] at hr
      refine Or.inr ⟨rfl, hfits, ?_⟩
      cases hrefresh : env.databaseFails (a.after 1).statements with
      | true =>
        rw [hrefresh] at hr
        rw [hr]
        exact ⟨hrows, Or.inl ⟨hrefresh, _, rfl⟩⟩
      | false =>
        rw [hrefresh] at hr
        rw [hr]
        exact ⟨hrows, Or.inr ⟨hrefresh, rfl⟩⟩
    · have hcommit : t.execute (.commitUpdate row assigned) (a.after 1) env =
          (.error dataError, a.after 1, t) := by
        simp only [TransactionTable.execute, hupdate]
      rw [hcommit] at hr
      rw [hr]
      exact Or.inl ⟨_, rfl, rfl, fun h => hunfit h.2⟩

/-- The SELECT of an update, once it is answered. -/
theorem answer_select {checkoutRequestId : String} (selected : env.databaseFails a.statements = false) :
    TransactionTable.answer env (.selectCheckoutRequestId checkoutRequestId) (a, t) =
      (.ok (firstMatch checkoutRequestId t.rows), a.after 1, t) := by
  rw [answer_statement env a t rfl, selected, if_neg Bool.false_ne_true]
  rfl

/-- An update whose transition validates comes down to one commit, once its row is selected. -/
theorem run_validUpdate {args : UpdateTransactionStatus} {row : PendingTransaction}
    {status : TransactionStatus} (found : firstMatch args.checkoutRequestId t.rows = some row)
    (valid : validateTransition row.status args.status = .ok status)
    (selected : env.databaseFails a.statements = false) :
    Prog.run (TransactionTable.answer env) (PostgresTransactionRepository.updateRow args) (a, t) =
      Prog.run (TransactionTable.answer env)
        (commitAndRefresh row (args.apply row status (env.clock a.clockReads)))
        (((a.after 1).now env).2, t) := by
  have hselect := @answer_select env a t args.checkoutRequestId selected
  have hnow : TransactionTable.answer env .now (a.after 1, t) =
      (.ok (env.clock a.clockReads), ((a.after 1).now env).2, t) := rfl
  simp only [PostgresTransactionRepository.updateRow, commitAndRefresh, Prog.run_bind, run_query,
    hselect, found, valid, hnow]

/-- The row that a callback assigns to the transaction it moves. -/
def movedRow (f : CallbackFields) (row : PendingTransaction) : PendingTransaction :=
  (f.update env.toRuntime).apply row (StkCallbackHandler.targetStatus f.resultCode)
    (env.clock a.clockReads)

/-- The update of a pending transaction by a callback validates, since a callback leads to a terminal
status; it comes down to the commit. -/
theorem run_updateRow {f : CallbackFields} {row : PendingTransaction}
    (found : firstMatch f.checkoutRequestId t.rows = some row) (pending : row.status = .pending)
    (selected : env.databaseFails a.statements = false) :
    Prog.run (TransactionTable.answer env)
        (PostgresTransactionRepository.updateRow (f.update env.toRuntime)) (a, t) =
      Prog.run (TransactionTable.answer env) (commitAndRefresh row (movedRow env a f row))
        (((a.after 1).now env).2, t) := by
  have hvalid : validateTransition row.status (f.update env.toRuntime).status =
      .ok (StkCallbackHandler.targetStatus f.resultCode) :=
    validateTransition_ok_iff.mpr ⟨pending, terminal_targetStatus f.resultCode, rfl⟩
  exact run_validUpdate env a t found hvalid selected

/-- The update of a callback that the first match accepts: it leaves the table alone and fails, or
commits and fails only where the refresh does. -/
theorem postgres_updateAnswer {f : CallbackFields} {row : PendingTransaction}
    (found : firstMatch f.checkoutRequestId t.rows = some row) (pending : row.status = .pending) :
    let r := updateAnswer env PostgresTransactionRepository f (a, t)
    let moved := movedRow env a f row
    (r.1 = .error storageUnavailable ∧ r.2.2 = t ∧
      ¬ (env.databaseFails a.statements = false ∧ env.databaseFails (a.statements + 1) = false ∧
        ColumnsHold moved)) ∨
    (env.databaseFails a.statements = false ∧ env.databaseFails (a.statements + 1) = false ∧
      ColumnsHold moved ∧ r.2.2.rows = t.rows.put moved ∧
      (env.databaseFails (a.statements + 2) = true ∧ r.1 = .error storageUnavailable ∨
        env.databaseFails (a.statements + 2) = false ∧ r.1 = .ok (some moved))) := by
  intro r moved
  have hr : r = Prog.run (TransactionTable.answer env)
    ((PostgresTransactionRepository.updateRow (f.update env.toRuntime)).translate
      PostgresTransactionRepository.integrityOrUnavailable) (a, t) := rfl
  rw [Prog.run_translate] at hr
  cases hselect : env.databaseFails a.statements with
  | true =>
    rw [PostgresTransactionRepository.updateRow, Prog.run_bind, run_query,
      answer_statement env a t rfl, hselect] at hr
    rw [hr]
    exact Or.inl ⟨rfl, rfl, fun h => absurd h.1 (by decide)⟩
  | false =>
    have hcommit := run_commitAndRefresh env ((a.after 1).now env).2 t row moved
      (get_of_firstMatch found).1 (writeChanges_self row moved) rfl
    rw [run_updateRow env a t found pending hselect] at hr
    rw [hr]
    rcases hcommit with ⟨message, hanswer, hsame, hcause⟩ | ⟨hhealthy, hfits, hrows, hanswer⟩
    · refine Or.inl ⟨?_, hsame, fun h => hcause h.2⟩
      rw [hanswer]
      rfl
    · refine Or.inr ⟨rfl, hhealthy, hfits, hrows, ?_⟩
      rcases hanswer with ⟨hfail, message, hanswer⟩ | ⟨hhealthy', hanswer⟩
      · exact Or.inl ⟨hfail, by rw [hanswer]; rfl⟩
      · exact Or.inr ⟨hhealthy', by rw [hanswer]; rfl⟩

/-- The INSERT of a row, as the n-th statement, goes through. -/
structure Insertable (n : Nat) (row : PendingTransaction) : Prop where
  healthy : env.databaseFails n = false
  fits : ColumnsHold row
  distinct : ∀ other ∈ t.rows.values, ¬ Conflict other row

/-- What a save answers and does: it leaves the table alone and fails, or stores the row; then only
the refresh can still fail. -/
inductive SaveCase (n : Nat) (row : PendingTransaction) (output : Except Exn PendingTransaction)
    (t' : TransactionTable) : Prop
  | refused (e : Exn) (answer : output = .error e) (same : t' = t)
      (cause : ¬ Insertable env t n row)
  | unread (insertable : Insertable env t n row) (put : t'.rows = t.rows.put row)
      (lost : env.databaseFails (n + 1) = true) (e : Exn) (answer : output = .error e)
  | saved (insertable : Insertable env t n row) (put : t'.rows = t.rows.put row)
      (read : env.databaseFails (n + 1) = false) (answer : output = .ok row)

/-- The commit of a save and the refresh behind it: a row that cannot be inserted leaves the table as
it was, and a refresh that is lost raises although the row is stored. -/
theorem run_commitInsert (row : PendingTransaction) :
    let r := Prog.run (TransactionTable.answer env) (do
      (PostgresTransactionRepository.query (.commitInsert row)).translate
        PostgresTransactionRepository.integrityOrUnavailable
      PostgresTransactionRepository.query (.refresh row.transactionId)) (a, t)
    r.2.1.uuidDraws = a.uuidDraws ∧ SaveCase env t a.statements row r.1 r.2.2 := by
  intro r
  have hr : r = _ := Prog.run_bind _ _ _ _
  simp only [Prog.run_translate, run_query] at hr
  rw [answer_statement env a t rfl] at hr
  cases hcommit : env.databaseFails a.statements with
  | true =>
    rw [hcommit, if_pos rfl] at hr
    rw [hr]
    exact ⟨rfl, .refused _ rfl rfl fun h => absurd (hcommit.symm.trans h.healthy) (by decide)⟩
  | false =>
    rw [hcommit, if_neg Bool.false_ne_true] at hr
    simp only [TransactionTable.execute] at hr
    rcases insert_cases t row with ⟨hunfit, hinsert⟩ | ⟨hfits, ⟨other, hother, hconflict⟩, hinsert⟩ |
      ⟨hfits, hdistinct, t', hinsert, hrows⟩
    · simp only [hinsert] at hr
      rw [hr]
      exact ⟨rfl, .refused _ rfl rfl fun h => hunfit h.fits⟩
    · simp only [hinsert] at hr
      rw [hr]
      exact ⟨rfl, .refused _ rfl rfl fun h => h.distinct other hother hconflict⟩
    · have hstored : t'.rows.get row.transactionId = some row := by
        rw [hrows]
        exact Keyed.get_put_self _ row
      simp only [hinsert] at hr
      have hr : r = TransactionTable.answer env (.refresh row.transactionId) (a.after 1, t') := hr
      rw [answer_refresh env _ t' hstored] at hr
      cases hrefresh : env.databaseFails (a.after 1).statements with
      | true =>
        rw [hrefresh, if_pos rfl] at hr
        rw [hr]
        exact ⟨rfl, .unread ⟨hcommit, hfits, hdistinct⟩ hrows hrefresh _ rfl⟩
      | false =>
        rw [hrefresh, if_neg Bool.false_ne_true] at hr
        rw [hr]
        exact ⟨rfl, .saved ⟨hcommit, hfits, hdistinct⟩ hrows hrefresh rfl⟩

/-- The row that a save inserts. -/
def savedRow (args : SavePendingTransaction) : PendingTransaction :=
  args.record (env.uuid4 a.uuidDraws) (env.clock a.clockReads) (env.clock a.clockReads)

/-- A save draws one identifier, and inserts its row under it. -/
theorem postgres_save (args : SavePendingTransaction) :
    let r := PostgresTransactionRepository.answer env (.savePendingTransaction args) (a, t)
    r.2.1.uuidDraws = a.uuidDraws + 1 ∧
      SaveCase env t a.statements (savedRow env a args) r.1 r.2.2 := by
  intro r
  have hr : r = Prog.run (TransactionTable.answer env)
    (PostgresTransactionRepository.savePendingTransaction args) (a, t) := rfl
  have hnow : TransactionTable.answer env .now (a, t) =
      (.ok (env.clock a.clockReads), (a.now env).2, t) := rfl
  have huuid : TransactionTable.answer env .uuid4 ((a.now env).2, t) =
      (.ok (env.uuid4 a.uuidDraws), ((a.now env).2.uuid4 env).2, t) := rfl
  rw [PostgresTransactionRepository.savePendingTransaction, Prog.run_bind, run_query, hnow] at hr
  dsimp only at hr
  rw [Prog.run_bind, run_query, huuid] at hr
  dsimp only at hr
  rw [hr]
  exact run_commitInsert env ((a.now env).2.uuid4 env).2 t (savedRow env a args)

/-! ## Callbacks -/

/-- The handler moves this transaction for this callback, and the commit goes through. The lookup,
the SELECT of the update and the commit are the first three statements. -/
structure Commits {π : Type} (payload : PyDict) (w : World TransactionTable π) (f : CallbackFields)
    (row : PendingTransaction) : Prop where
  read : readFields env.toRuntime payload = .ok (some f)
  found : firstMatch f.checkoutRequestId w.transactions.rows = some row
  accepts : f.Accepts env.toRuntime row
  columns : ColumnsHold ((f.update env.toRuntime).apply row
    (StkCallbackHandler.targetStatus f.resultCode) (env.clock w.ambient.clockReads))
  lookup : env.databaseFails w.ambient.statements = false
  select : env.databaseFails (w.ambient.statements + 1) = false
  commit : env.databaseFails (w.ambient.statements + 2) = false

/-- A callback commits, and is answered as applied unless the refresh fails, or changes nothing. So an
answer that says applied is always about a committed row, and not the other way round. -/
theorem postgres_process {π : Type} (settings : Settings) (verifier : CallbackSourceVerifier)
    (provider : PaymentProvider π) (payload : PyDict) (w : World TransactionTable π) :
    let r := Prog.run (handle env (.postgres settings verifier provider))
      (StkCallbackHandler.process env.toRuntime payload) w
    ((∀ f row, ¬ Commits env payload w f row) ∧ Unapplied r.1 ∧ r.2.transactions = w.transactions) ∨
    ∃ f row, Commits env payload w f row ∧
      r.2.transactions.rows = w.transactions.rows.put ((f.update env.toRuntime).apply row
        (StkCallbackHandler.targetStatus f.resultCode) (env.clock w.ambient.clockReads)) ∧
      (env.databaseFails (w.ambient.statements + 3) = true ∧ Unapplied r.1 ∨
        env.databaseFails (w.ambient.statements + 3) = false ∧ AppliedAs f r.1) := by
  intro r
  have hfind : ∀ f, lookupAnswer env PostgresTransactionRepository f w.store =
      if env.databaseFails w.ambient.statements then
        (.error storageUnavailable, w.ambient.after 1, w.transactions)
      else (.ok (firstMatch f.checkoutRequestId w.transactions.rows), w.ambient.after 1,
        w.transactions) := fun f => postgres_find env _ _ f.checkoutRequestId
  have hcase : ProcessCase env PostgresTransactionRepository payload w.store r.1 r.2.store :=
    process_cases env (.postgres settings verifier provider) payload w
  cases hcase with
  | unread unread unapplied after =>
    exact Or.inl ⟨fun f _ h => unread f h.read, unapplied, congrArg Prod.snd after⟩
  | unmatched f read unmatched unapplied after =>
    rw [hfind] at unmatched after
    refine Or.inl ⟨fun g row h => ?_, unapplied, ?_⟩
    · cases read.symm.trans h.read
      rw [h.lookup] at unmatched
      exact unmatched row (congrArg Except.ok h.found)
    · have hsame := congrArg Prod.snd after
      split at hsame <;> exact hsame
  | refused f read row found refuses unapplied after =>
    rw [hfind] at found after
    refine Or.inl ⟨fun g row' h => ?_, unapplied, ?_⟩
    · cases read.symm.trans h.read
      rw [h.lookup] at found
      cases (Except.ok.inj found : firstMatch f.checkoutRequestId _ = _).symm.trans h.found
      exact refuses h.accepts
    · have hsame := congrArg Prod.snd after
      split at hsame <;> exact hsame
  | updated f read row found accepts applied raised after =>
    rw [hfind] at found
    cases hlookup : env.databaseFails w.ambient.statements with
    | true =>
      rw [hlookup] at found
      cases found
    | false =>
      rw [hlookup] at found
      have hmatch : firstMatch f.checkoutRequestId w.transactions.rows = some row :=
        Except.ok.inj found
      have hstore : (lookupAnswer env PostgresTransactionRepository f w.store).2 =
          (w.ambient.after 1, w.transactions) := by
        rw [hfind, hlookup]
        rfl
      rw [hstore] at applied raised after
      have hsame := congrArg Prod.snd after
      rcases postgres_updateAnswer env (w.ambient.after 1) w.transactions hmatch accepts.pending with
        ⟨hanswer, htable, hcause⟩ | ⟨hselect, hcommit, hcolumns, hrows, hanswer⟩
      · refine Or.inl ⟨fun g row' h => ?_, raised _ hanswer, hsame.trans htable⟩
        cases read.symm.trans h.read
        cases hmatch.symm.trans h.found
        exact hcause ⟨h.select, h.commit, h.columns⟩
      · refine Or.inr ⟨f, row, ⟨read, hmatch, accepts, hcolumns, hlookup, hselect, hcommit⟩, ?_, ?_⟩
        · exact (congrArg TransactionTable.rows hsame).trans hrows
        · exact hanswer.imp (fun h => ⟨h.1, raised _ h.2⟩) (fun h => ⟨h.1, applied _ h.2⟩)

end MpesaMcp
