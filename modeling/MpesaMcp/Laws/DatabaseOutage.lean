import MpesaMcp.App.PostgresContainer
import MpesaMcp.Laws.CallbackTotality

/-!
# Database failures and the callback route

The transaction repository turns a failed statement into an `InfrastructureUnavailableError`, which the
route answers with 503. The audit repository turns it into nothing, and every answer of the route but a
plain acceptance of its checks comes with an audit event, the 503 among them. So the route answers
exactly where the two statements of its one audit event go through (`post_answers_iff`), and two
conversions do not raise: an infinite number, and a header that `compare_digest` refuses.
-/

set_option autoImplicit false

namespace MpesaMcp

open Library Python StkCallbackHandler

/-! ## One audit event -/

section Audit

variable {π : Type} (env : Env) (correlationId : Option String)

/-- An audit event is written, its statements being the k-th and the next one from here: neither fails,
and the row is accepted. -/
structure AuditAnswered (w : PostgresWorld π) (k : Nat) : Prop where
  insert : env.databaseFails (w.app.ambient.statements + k) = false
  refresh : env.databaseFails (w.app.ambient.statements + k + 1) = false
  eventId : (env.uuid4 w.app.ambient.uuidDraws).length ≤ 36
  correlationId : ∀ id ∈ correlationId, id.length ≤ 128
  fresh : ∀ row ∈ w.auditRows, row.eventId ≠ env.uuid4 w.app.ambient.uuidDraws

/-- An answer that comes with an audit event, the k-th statement from here being its first. -/
def Logged {α : Type} (w : PostgresWorld π) (k : Nat) (a : α) (output : Except Exn α) : Prop :=
  (AuditAnswered env correlationId w k ∧ output = .ok a) ∨
  (¬ AuditAnswered env correlationId w k ∧
    ∃ e, output = .error e ∧ ∀ message, e ≠ .infrastructureUnavailable message)

/-- `save_event` returns where its statements go through. Otherwise it raises what the database raised,
which is no `InfrastructureUnavailableError` and so is not answered by the route. -/
theorem run_saveEvent {event : AuditEvent} (short : event.Short) (w : PostgresWorld π) :
    Logged env correlationId w 0 (event.row env correlationId w.app.ambient)
      (Prog.run (PostgresAuditRepository.answer env)
        (PostgresAuditRepository.saveEvent correlationId event) (w.app.ambient, w.auditRows)).1 := by
  set row := event.row env correlationId w.app.ambient with hrow
  set drawn := PostgresAuditRepository.drawn env w.app.ambient with hdrawn
  rw [PostgresAuditRepository.run_saveEvent_eq, ← hrow, ← hdrawn]
  simp only [PostgresAuditRepository.insertRow, PostgresAuditRepository.query, Prog.run_bind,
    Prog.run_send]
  rcases PostgresAuditRepository.commitInsert_cases env w.auditRows row drawn with
    ⟨⟨hinsert, hcolumns, hfresh⟩, hr⟩ | ⟨hrefused, e, hr, he⟩
  · have hnew : row.eventId ∉ w.auditRows.map AuditEventRow.eventId := by
      intro hmem
      obtain ⟨other, hother, hid⟩ := List.mem_map.mp hmem
      exact hfresh other hother hid
    rw [hr]
    dsimp only
    rw [PostgresAuditRepository.refresh_new env w.auditRows row _ hnew]
    split
    next hfails =>
      refine Or.inr ⟨fun h => ?_, _, rfl, fun _ h => by cases h⟩
      cases hfails.symm.trans h.refresh
    next hanswers =>
      exact Or.inl ⟨⟨hinsert, Bool.eq_false_iff.mpr hanswers, hcolumns.eventId,
        hcolumns.correlationId, hfresh⟩, rfl⟩
  · rw [hr]
    refine Or.inr ⟨fun h => hrefused ⟨h.insert, ?_, h.fresh⟩, e, rfl, he⟩
    exact ⟨h.eventId, short.eventType, short.actor, h.correlationId⟩

/-- A later moment of a request: k statements on, and nothing else that an audit event depends on. -/
structure Later (w : PostgresWorld π) (k : Nat) (w' : PostgresWorld π) : Prop where
  statements : w'.app.ambient.statements = w.app.ambient.statements + k
  uuidDraws : w'.app.ambient.uuidDraws = w.app.ambient.uuidDraws
  auditRows : w'.auditRows = w.auditRows

/-- Statements are counted on: a world that is later by `k` and then by `j` is later by their sum. -/
theorem Later.trans {w w' w'' : PostgresWorld π} {k j : Nat} (h : Later w k w') (h' : Later w' j w'') :
    Later w (k + j) w'' where
  statements := by
    rw [h'.statements, h.statements]
    omega
  uuidDraws := h'.uuidDraws.trans h.uuidDraws
  auditRows := h'.auditRows.trans h.auditRows

/-- Whether the audit is answered depends on the number of the statement alone. -/
theorem Later.auditAnswered_iff {env : Env} {correlationId : Option String} {w w' : PostgresWorld π}
    {k j : Nat} (h : Later w k w') :
    AuditAnswered env correlationId w' j ↔ AuditAnswered env correlationId w (k + j) := by
  have hnth : w'.app.ambient.statements + j = w.app.ambient.statements + (k + j) := by
    rw [h.statements]
    omega
  constructor
  · rintro ⟨hinsert, hrefresh, hid, hcorrelation, hfresh⟩
    rw [hnth] at hinsert hrefresh
    rw [h.uuidDraws] at hid hfresh
    rw [h.auditRows] at hfresh
    exact ⟨hinsert, hrefresh, hid, hcorrelation, hfresh⟩
  · rintro ⟨hinsert, hrefresh, hid, hcorrelation, hfresh⟩
    rw [← hnth] at hinsert hrefresh
    rw [← h.uuidDraws] at hid hfresh
    rw [← h.auditRows] at hfresh
    exact ⟨hinsert, hrefresh, hid, hcorrelation, hfresh⟩

/-- What is logged after some statements is logged in the world before them, at a position further on. -/
theorem Later.logged {α : Type} {env : Env} {correlationId : Option String} {w w' : PostgresWorld π}
    {k j : Nat} {a : α} {output : Except Exn α} (h : Later w k w')
    (logged : Logged env correlationId w' j a output) : Logged env correlationId w (k + j) a output :=
  logged.imp (And.imp_left h.auditAnswered_iff.mp)
    (And.imp_left fun hnot hanswered => hnot (h.auditAnswered_iff.mpr hanswered))

end Audit

/-! ## The statements of a callback -/

section Statements

variable {π : Type} (env : Env)

/-- The callback names a pending payment that it agrees with, and its lookup is answered. -/
structure Moves (payload : PyDict) (w : World TransactionTable π) (f : CallbackFields)
    (row : PendingTransaction) : Prop where
  read : readFields env.toRuntime payload = .ok (some f)
  answered : env.databaseFails w.ambient.statements = false
  found : firstMatch f.checkoutRequestId w.transactions.rows = some row
  accepts : f.Accepts env.toRuntime row

/-- The number of statements of an update, the n-th statement being its first: the SELECT, the commit
and the refresh, each after the one before it. -/
def updateStatements (n : Nat) (assigned : PendingTransaction) : Nat :=
  if env.databaseFails n then 1
  else if env.databaseFails (n + 1) = false ∧ ColumnsHold assigned then 3 else 2

/-- The number of transaction statements in front of the audit event of a callback. -/
inductive AuditPosition (payload : PyDict) (w : World TransactionTable π) : Nat → Prop
  | unread (unread : ∀ f, readFields env.toRuntime payload ≠ .ok (some f)) : AuditPosition payload w 0
  | looked (f : CallbackFields) (read : readFields env.toRuntime payload = .ok (some f))
      (idle : ∀ row, ¬ Moves env payload w f row) : AuditPosition payload w 1
  | moved (f : CallbackFields) (row : PendingTransaction) (moves : Moves env payload w f row) :
      AuditPosition payload w (1 + updateStatements env (w.ambient.statements + 1)
        (movedRow env (w.ambient.after 1) f row))

/-- A transaction statement of a callback fails: its lookup, or its update. -/
inductive StatementFails (payload : PyDict) (w : World TransactionTable π) : Prop
  | lookup (f : CallbackFields) (read : readFields env.toRuntime payload = .ok (some f))
      (fails : env.databaseFails w.ambient.statements = true)
  | update (f : CallbackFields) (row : PendingTransaction) (moves : Moves env payload w f row)
      (fails : ¬ (env.databaseFails (w.ambient.statements + 1) = false ∧
        env.databaseFails (w.ambient.statements + 2) = false ∧
        ColumnsHold (movedRow env (w.ambient.after 1) f row) ∧
        env.databaseFails (w.ambient.statements + 3) = false))

variable {env}

/-- One payload moves one row, since its fields and the first match are determined. -/
theorem Moves.unique {payload : PyDict} {w : World TransactionTable π} {f g : CallbackFields}
    {row other : PendingTransaction} (h : Moves env payload w f row)
    (h' : Moves env payload w g other) : g = f ∧ other = row := by
  cases h.read.symm.trans h'.read
  cases h.found.symm.trans h'.found
  exact ⟨rfl, rfl⟩

/-- The position of the audit statement is determined by the payload and the store. -/
theorem AuditPosition.unique {payload : PyDict} {w : World TransactionTable π} {k j : Nat}
    (h : AuditPosition env payload w k) (h' : AuditPosition env payload w j) : j = k := by
  cases h with
  | unread unread =>
    cases h' with
    | unread => rfl
    | looked f read => exact absurd read (unread f)
    | moved f row moves => exact absurd moves.read (unread f)
  | looked f read idle =>
    cases h' with
    | unread unread => exact absurd read (unread f)
    | looked => rfl
    | moved g row moves =>
      cases read.symm.trans moves.read
      exact absurd moves (idle row)
  | moved f row moves =>
    cases h' with
    | unread unread => exact absurd moves.read (unread f)
    | looked g read idle =>
      cases read.symm.trans moves.read
      exact absurd moves (idle row)
    | moved g other moves' =>
      obtain ⟨rfl, rfl⟩ := moves.unique moves'
      rfl

/-- The surroundings after a commit and the refresh behind it. -/
theorem commitAndRefresh_ambient (a : Ambient) (t : TransactionTable)
    {row assigned : PendingTransaction} (stored : t.rows.get row.transactionId = some row)
    (assignment : writeChanges row assigned row = assigned)
    (sameKey : assigned.transactionId = row.transactionId) :
    (Prog.run (TransactionTable.answer env) (commitAndRefresh row assigned) (a, t)).2.1 =
      a.after (if env.databaseFails a.statements = false ∧ ColumnsHold assigned then 2 else 1) := by
  simp only [commitAndRefresh, Prog.run_bind, run_query, Prog.run_map]
  rw [answer_statement env a t rfl]
  cases hfails : env.databaseFails a.statements with
  | true => rfl
  | false =>
    rw [if_neg Bool.false_ne_true]
    rcases update_stored stored assignment with ⟨hfits, t', hupdate, hrows⟩ | ⟨hunfit, hupdate⟩
    · have hcommit : t.execute (.commitUpdate row assigned) (a.after 1) env =
          (.ok (), a.after 1, t') := by
        simp only [TransactionTable.execute, hupdate]
      have hstored : t'.rows.get row.transactionId = some assigned := by
        rw [hrows]
        exact Keyed.get_put_of_eq _ sameKey
      have hboth : false = false ∧ ColumnsHold assigned := ⟨rfl, hfits⟩
      rw [if_pos hboth, hcommit]
      dsimp only
      rw [answer_refresh env (a.after 1) t' hstored]
      cases env.databaseFails (a.after 1).statements <;> rfl
    · have hcommit : t.execute (.commitUpdate row assigned) (a.after 1) env =
          (.error dataError, a.after 1, t) := by
        simp only [TransactionTable.execute, hupdate]
      have hnot : ¬ (false = false ∧ ColumnsHold assigned) := fun h => hunfit h.2
      rw [if_neg hnot, hcommit]

/-- The surroundings after the update of a pending transaction. -/
theorem updateAnswer_ambient (a : Ambient) (t : TransactionTable) {f : CallbackFields}
    {row : PendingTransaction} (found : firstMatch f.checkoutRequestId t.rows = some row)
    (pending : row.status = .pending) :
    let s := (updateAnswer env PostgresTransactionRepository f (a, t)).2
    s.1.statements = a.statements + updateStatements env a.statements (movedRow env a f row) ∧
      s.1.uuidDraws = a.uuidDraws := by
  intro s
  have hs : s = (Prog.run (TransactionTable.answer env)
      ((PostgresTransactionRepository.updateRow (f.update env.toRuntime)).translate
        PostgresTransactionRepository.integrityOrUnavailable) (a, t)).2 := rfl
  rw [Prog.run_translate] at hs
  unfold updateStatements
  cases hselect : env.databaseFails a.statements with
  | true =>
    rw [PostgresTransactionRepository.updateRow, Prog.run_bind, run_query,
      answer_statement env a t rfl, hselect] at hs
    rw [hs]
    exact ⟨rfl, rfl⟩
  | false =>
    have hambient := @commitAndRefresh_ambient env ((a.after 1).now env).2 t row _
      (get_of_firstMatch found).1 (writeChanges_self row (movedRow env a f row)) rfl
    rw [run_updateRow env a t found pending hselect] at hs
    rw [hs, hambient]
    have hnext : ((a.after 1).now env).2.statements = a.statements + 1 := rfl
    rw [hnext]
    refine ⟨?_, rfl⟩
    split
    · show a.statements + 1 + 2 = a.statements + 3
      omega
    · show a.statements + 1 + 1 = a.statements + 2
      omega

end Statements

/-! ## The handler in postgres mode -/

/-- A run of a part of the route in postgres mode. -/
abbrev runPostgres {π α : Type} (env : Env) (container : AppContainer TransactionTable π)
    (correlationId : Option String) (p : App α) (w : PostgresWorld π) :
    Except Exn α × PostgresWorld π :=
  Prog.run (handlePostgres env container correlationId) p w

section Handler

variable {π : Type} (env : Env) (container : AppContainer TransactionTable π)
  (correlationId : Option String)

/-- What the handler answers in postgres mode. -/
inductive ProcessEnds (payload : PyDict) (w : PostgresWorld π)
    (output : Except Exn CallbackProcessingResult) (w' : PostgresWorld π) : Prop
  | infinite (infinite : ¬ FiniteNumbers env container payload w.app.store)
      (raised : ∃ message, output = .error (.overflowError message))
  | reported (k : Nat) (position : AuditPosition env payload w.app k)
      (healthy : ¬ StatementFails env payload w.app)
      (finite : FiniteNumbers env container payload w.app.store)
      (result : CallbackProcessingResult) (logged : Logged env correlationId w k result output)
  | unavailable (k : Nat) (position : AuditPosition env payload w.app k)
      (fails : StatementFails env payload w.app)
      (finite : FiniteNumbers env container payload w.app.store)
      (raised : output = .error storageUnavailable) (later : Later w k w')

/-- The world with the part replaced that the transaction repository reads and writes. -/
def PostgresWorld.withStore (w : PostgresWorld π) (s : Ambient × TransactionTable) : PostgresWorld π :=
  { w with app := w.app.withStore s }

variable {env container correlationId}

/-- A program that logs an event and returns. -/
theorem logged_logEvent {α : Type} {event : AuditEvent} (short : event.Short) (a : α)
    (w : PostgresWorld π) :
    Logged env correlationId w 0 a (runPostgres env container correlationId
      (ask (.logEvent event) >>= fun _ => pure a) w).1 := by
  have hask : handlePostgres env container correlationId (.logEvent event) w =
      ((Prog.run (PostgresAuditRepository.answer env)
          (PostgresAuditRepository.saveEvent correlationId event)
          (w.app.ambient, w.auditRows)).1.map fun _ => (), _) := rfl
  simp only [runPostgres, Prog.run_bind, run_ask]
  rw [hask]
  rcases run_saveEvent env correlationId short w with
    ⟨hanswered, hrow⟩ | ⟨hlost, e, he, hunavailable⟩
  · rw [hrow]
    exact Or.inl ⟨hanswered, rfl⟩
  · rw [he]
    exact Or.inr ⟨hlost, e, rfl, hunavailable⟩

/-- A part that only reports has its audit statement first. -/
theorem logged_reports {p : App CallbackProcessingResult} (h : Reports p) (w : PostgresWorld π) :
    ∃ result, Logged env correlationId w 0 result (runPostgres env container correlationId p w).1 := by
  obtain ⟨event, result, short, -, rfl⟩ := h
  exact ⟨result, logged_logEvent short result w⟩

variable (postgres : container.transactionRepository = PostgresTransactionRepository)

include postgres

/-- How the container answers a call of the transaction repository. -/
theorem handlePostgres_transactions (m : TransactionRepositoryProtocol) (w : PostgresWorld π) :
    handlePostgres env container correlationId (.transactions m) w =
      ((PostgresTransactionRepository.answer env m w.app.store).1,
        w.withStore (PostgresTransactionRepository.answer env m w.app.store).2) := by
  simp only [handlePostgres, handle, postgres]
  rfl

/-- The update of a callback that a pending payment accepts: it is answered and reported, or it fails
after the statements that it ran. -/
theorem run_applyCallback_postgres {f : CallbackFields} {row : PendingTransaction}
    {w : PostgresWorld π} (accepts : f.Accepts env.toRuntime row)
    (found : firstMatch f.checkoutRequestId w.app.transactions.rows = some row) :
    let r := runPostgres env container correlationId (applyCallback env.toRuntime
      f.checkoutRequestId f.resultCode f.resultDescription f.metadata) w
    let k := updateStatements env w.app.ambient.statements (movedRow env w.app.ambient f row)
    let healthy := env.databaseFails w.app.ambient.statements = false ∧
      env.databaseFails (w.app.ambient.statements + 1) = false ∧
      ColumnsHold (movedRow env w.app.ambient f row) ∧
      env.databaseFails (w.app.ambient.statements + 2) = false
    (healthy ∧ ∃ result, Logged env correlationId w k result r.1) ∨
      (¬ healthy ∧ r.1 = .error storageUnavailable ∧ Later w k r.2) := by
  intro r k healthy
  let u := updateAnswer env PostgresTransactionRepository f w.app.store
  let w' := w.withStore u.2
  have hlater : Later w k w' := by
    obtain ⟨hstatements, hdraws⟩ := updateAnswer_ambient w.app.ambient w.app.transactions found
      accepts.pending
    exact ⟨hstatements, hdraws, rfl⟩
  have hask : handlePostgres env container correlationId
      (.transactions (.updateTransactionStatus (f.update env.toRuntime))) w = (u.1, w') :=
    handlePostgres_transactions postgres _ w
  have hr : r = runPostgres env container correlationId (applyCallback env.toRuntime
      f.checkoutRequestId f.resultCode f.resultDescription f.metadata) w := rfl
  simp only [runPostgres, applyCallback, Prog.run_bind, Prog.run_attempt, run_ask] at hr
  simp only [CallbackFields.update] at hask
  rw [hask] at hr
  have refused : u.1 = .error storageUnavailable → ¬ healthy →
      (healthy ∧ ∃ result, Logged env correlationId w k result r.1) ∨
        (¬ healthy ∧ r.1 = .error storageUnavailable ∧ Later w k r.2) := by
    intro hu hfails
    rw [hu] at hr
    rw [hr]
    exact Or.inr ⟨hfails, rfl, hlater⟩
  rcases postgres_updateAnswer env w.app.ambient w.app.transactions found accepts.pending with
    ⟨hu, -, hcause⟩ | ⟨hselect, hcommit, hfits, -, ⟨hfails, hu⟩ | ⟨hrefresh, hu⟩⟩
  · exact refused hu fun h => hcause ⟨h.1, h.2.1, h.2.2.1⟩
  · exact refused hu fun h => by cases hfails.symm.trans h.2.2.2
  · obtain ⟨amount, hamount⟩ := accepts.finite
    have hu : u.1 = .ok (some (movedRow env w.app.ambient f row)) := hu
    rw [hu] at hr
    simp only [hamount, lift] at hr
    rw [hr]
    have hlogged := fun payload result =>
      @logged_logEvent π env container correlationId CallbackProcessingResult
        { eventType := "stk_callback_processed", payload := payload }
        ⟨(by decide : "stk_callback_processed".length ≤ 128), fun _ h => by cases h⟩ result w'
    exact Or.inl ⟨⟨hselect, hcommit, hfits, hrefresh⟩, _, hlater.logged (hlogged _ _)⟩

/-- The transaction that the lookup found, as the handler goes on with it. The statements of the
update, where there is one, come before those of the audit event, which is where the position of the
latter comes from. -/
theorem run_checkFields_postgres {payload : PyDict} {f : CallbackFields} {row : PendingTransaction}
    {w w₁ : PostgresWorld π} (finite : FiniteNumbers env container payload w.app.store ↔
      ¬ Infinite (lookup f.metadata "Amount"))
    (read : readFields env.toRuntime payload = .ok (some f))
    (answered : env.databaseFails w.app.ambient.statements = false)
    (found : firstMatch f.checkoutRequestId w.app.transactions.rows = some row)
    (store : w₁.app.store = (w.app.ambient.after 1, w.app.transactions))
    (auditRows : w₁.auditRows = w.auditRows) :
    let r := runPostgres env container correlationId (checkFields env.toRuntime f row) w₁
    ProcessEnds env container correlationId payload w r.1 r.2 := by
  intro r
  have hambient : w₁.app.ambient = w.app.ambient.after 1 := congrArg Prod.fst store
  have htransactions : w₁.app.transactions = w.app.transactions := congrArg Prod.snd store
  have hlater : Later w 1 w₁ := by
    refine ⟨?_, ?_, auditRows⟩
    · rw [hambient]
      rfl
    · rw [hambient]
      rfl
  have hlooked : ¬ f.Accepts env.toRuntime row → AuditPosition env payload w.app 1 := by
    intro refuses
    refine .looked f read fun other moves => refuses ?_
    cases found.symm.trans moves.found
    exact moves.accepts
  cases hp : checkFields_program env.toRuntime f row with
  | infinite infinite _ program =>
    obtain ⟨message, hprogram⟩ := program
    refine .infinite (fun h => finite.mp h infinite) ⟨message, ?_⟩
    simp only [r, runPostgres, hprogram, Prog.run_raise]
  | reports hfinite refuses program =>
    obtain ⟨result, hlogged⟩ := @logged_reports π env container correlationId _ program w₁
    refine .reported 1 (hlooked refuses) ?_ (finite.mpr hfinite) result (hlater.logged hlogged)
    rintro (⟨g, -, hfails⟩ | ⟨g, other, moves, -⟩)
    · cases answered.symm.trans hfails
    · cases read.symm.trans moves.read
      cases found.symm.trans moves.found
      exact refuses moves.accepts
  | applies accepts program =>
    have moves : Moves env payload w.app f row := ⟨read, answered, found, accepts⟩
    have hposition := AuditPosition.moved f row moves
    have hran := @run_applyCallback_postgres π env container correlationId postgres f row w₁ accepts
      (by rw [htransactions]; exact found)
    rw [hambient] at hran
    simp only [r, program]
    rcases hran with ⟨hhealthy, result, hlogged⟩ | ⟨hfails, herror, hafter⟩
    · refine .reported _ hposition ?_ (finite.mpr accepts.not_infinite) result (hlater.logged hlogged)
      rintro (⟨g, -, hlost⟩ | ⟨g, other, moves', hlost⟩)
      · cases answered.symm.trans hlost
      · obtain ⟨rfl, rfl⟩ := moves.unique moves'
        exact hlost hhealthy
    · exact .unavailable _ hposition (.update f row moves hfails) (finite.mpr accepts.not_infinite)
        herror (hlater.trans hafter)

/-- The callback is counted. -/
def PostgresWorld.counted (w : PostgresWorld π) : PostgresWorld π :=
  { w with app := { w.app with metrics := w.app.metrics.increment .callbackReceived } }

/-- A callback whose fields are read: the lookup fails, finds no transaction, or finds one that is
checked. -/
theorem read_ends {payload : PyDict} {f : CallbackFields}
    (finite : ∀ callback, extractCallback payload = some callback →
      ¬ Infinite (lookup callback "ResultCode"))
    (read : readFields env.toRuntime payload = .ok (some f)) (w : PostgresWorld π) :
    let r := runPostgres env container correlationId
      (ask (.transactions (.findByCheckoutRequestId f.checkoutRequestId)) >>= checkFound env.toRuntime f)
      w.counted
    ProcessEnds env container correlationId payload w r.1 r.2 := by
  intro r
  have hr : r = runPostgres env container correlationId
    (ask (.transactions (.findByCheckoutRequestId f.checkoutRequestId)) >>= checkFound env.toRuntime f)
    w.counted := rfl
  -- the world once the transaction is looked up
  let w₁ := w.counted.withStore (w.app.ambient.after 1, w.app.transactions)
  have hlooked : Later w 1 w₁ := ⟨rfl, rfl, rfl⟩
  have hlookup : lookupAnswer env PostgresTransactionRepository f w.app.store = _ :=
    postgres_find env w.app.ambient w.app.transactions f.checkoutRequestId
  have hask : handlePostgres env container correlationId
      (.transactions (.findByCheckoutRequestId f.checkoutRequestId)) w.counted =
        ((lookupAnswer env PostgresTransactionRepository f w.app.store).1,
          w.counted.withStore (lookupAnswer env PostgresTransactionRepository f w.app.store).2) :=
    handlePostgres_transactions postgres _ w.counted
  -- the amount is read only where the lookup finds the transaction
  have hfinite : FiniteNumbers env container payload w.app.store ↔
      ∀ t, (lookupAnswer env PostgresTransactionRepository f w.app.store).1 = .ok (some t) →
        ¬ Infinite (lookup f.metadata "Amount") := by
    rw [← postgres]
    refine ⟨fun h t hfound => h.amount f t read hfound, fun h => ⟨finite, fun g t hg hfound => ?_⟩⟩
    cases read.symm.trans hg
    exact h t hfound
  simp only [runPostgres, Prog.run_bind, run_ask, hask] at hr
  rw [hr]
  cases hfails : env.databaseFails w.app.ambient.statements with
  | true =>
    rw [hfails, if_pos rfl] at hlookup
    rw [hlookup] at hfinite ⊢
    have hidle : ∀ row, ¬ Moves env payload w.app f row :=
      fun row moves => by cases hfails.symm.trans moves.answered
    exact .unavailable 1 (.looked f read hidle) (.lookup f read hfails)
      (hfinite.mpr fun t h => by cases h) rfl hlooked
  | false =>
    rw [hfails, if_neg Bool.false_ne_true] at hlookup
    rw [hlookup] at hfinite ⊢
    cases hfound : firstMatch f.checkoutRequestId w.app.transactions.rows with
    | none =>
      have hidle : ∀ row, ¬ Moves env payload w.app f row :=
        fun row moves => by cases hfound.symm.trans moves.found
      obtain ⟨result, hlogged⟩ := @logged_reports π env container correlationId _
        (reports_unknownTransactionResult f.checkoutRequestId) w₁
      refine .reported 1 (.looked f read hidle) ?_ (hfinite.mpr fun t h => ?_) result
        (hlooked.logged hlogged)
      · rintro (⟨g, -, hlost⟩ | ⟨g, row, moves, -⟩)
        · cases hfails.symm.trans hlost
        · cases read.symm.trans moves.read
          exact hidle row moves
      · cases hfound.symm.trans (Except.ok.inj h)
    | some row =>
      rw [hfound] at hfinite
      exact run_checkFields_postgres postgres (hfinite.trans ⟨fun h => h row rfl, fun h _ _ => h⟩)
        read hfails hfound rfl rfl

/-- **What the handler answers in postgres mode**: it raises on an infinite number or where its storage
fails, and otherwise returns exactly if its audit event is saved, at a position among the statements
that the payload and the store determine. -/
theorem process_ends (payload : PyDict) (w : PostgresWorld π) :
    let r := runPostgres env container correlationId (process env.toRuntime payload) w
    ProcessEnds env container correlationId payload w r.1 r.2 := by
  intro r
  have hcounted : Later w 0 w.counted := ⟨rfl, rfl, rfl⟩
  obtain ⟨p, hprocess, hp⟩ := process_program env.toRuntime payload
  have hr : r = runPostgres env container correlationId p w.counted := by
    simp only [r, hprocess, runPostgres, Prog.run_bind, run_ask]
    rfl
  rw [hr]
  cases hp with
  | infinite callback extracted infinite _ program =>
    obtain ⟨message, rfl⟩ := program
    exact .infinite (fun h => h.resultCode callback extracted infinite) ⟨message, rfl⟩
  | unread finite unread program =>
    obtain ⟨result, hlogged⟩ := @logged_reports π env container correlationId _ program w.counted
    refine .reported 0 (.unread unread) ?_ ⟨finite, fun f _ hf => absurd hf (unread f)⟩ result
      (hcounted.logged hlogged)
    rintro (⟨f, hf, -⟩ | ⟨f, row, moves, -⟩)
    · exact unread f hf
    · exact unread f moves.read
  | read f finite read program =>
    rw [program]
    exact read_ends postgres finite read w

end Handler

/-! ## The route in postgres mode -/

section Route

variable {π : Type} (env : Env) (container : AppContainer TransactionTable π)
  (correlationId : Option String)

/-- A comparison or a verification in front of the handler raises. -/
def CallbackRoute.ChecksRaise (self : CallbackRoute) (request : CallbackRequest) : Prop :=
  self.SecretRaises request.callbackSecret ∨
    self.SecretValid request.callbackSecret ∧ self.SourceRaises request.headers

/-- The world in which the handler meets a delivery with a free key. -/
def PostgresWorld.admitted (payload : PyDict) (w : PostgresWorld π) : PostgresWorld π :=
  { w with app := w.app.admitted env container payload }

/-- The delivery reaches the handler. -/
structure Delivered (request : CallbackRequest) (w : PostgresWorld π) : Prop where
  authenticated : container.callbackRoute.Authenticated request
  free : ¬ w.app.Taken env container request.payload

/-- What the route answers to a delivery that reaches the handler. -/
inductive DeliveryEnds (payload : PyDict) (w : PostgresWorld π)
    (output : Except Exn CallbackResponse) : Prop
  | infinite (infinite : ¬ FiniteNumbers env container payload w.app.store)
      (raised : ∃ e, output = .error e)
  | processed (k : Nat) (position : AuditPosition env payload w.app k)
      (healthy : ¬ StatementFails env payload w.app)
      (finite : FiniteNumbers env container payload w.app.store)
      (result : CallbackProcessingResult)
      (logged : Logged env correlationId w k (.processed result) output)
  | unavailable (k : Nat) (position : AuditPosition env payload w.app k)
      (finite : FiniteNumbers env container payload w.app.store)
      (reason : String)
      (logged : Logged env correlationId w k (.json 503 "infrastructure_unavailable" reason) output)

/-- What the route answers in postgres mode. -/
inductive PostEnds (request : CallbackRequest) (w : PostgresWorld π)
    (output : Except Exn CallbackResponse) : Prop
  | raised (raises : container.callbackRoute.ChecksRaise request) (raised : ∃ e, output = .error e)
  | stopped (quiet : ¬ container.callbackRoute.ChecksRaise request)
      (stopped : ¬ Delivered env container request w) (response : CallbackResponse)
      (logged : Logged env correlationId w 0 response output)
  | delivered (quiet : ¬ container.callbackRoute.ChecksRaise request)
      (delivered : Delivered env container request w)
      (ends : DeliveryEnds env container correlationId request.payload
        (w.admitted env container request.payload) output)

variable {env container correlationId}

/-- The route answers for the handler, and for a transaction storage that is unavailable. Either way an
audit event is saved, and nothing catches its failure. -/
theorem processCallback_ends
    (postgres : container.transactionRepository = PostgresTransactionRepository) (payload : PyDict)
    (w : PostgresWorld π) :
    DeliveryEnds env container correlationId payload w (runPostgres env container correlationId
      (CallbackRoute.processCallback env.toRuntime payload) w).1 := by
  have hends := @process_ends π env container correlationId postgres payload w
  simp only [runPostgres, CallbackRoute.processCallback, Prog.run_bind, Prog.run_attempt] at hends ⊢
  generalize Prog.run (handlePostgres env container correlationId) (process env.toRuntime payload) w =
    r at hends ⊢
  obtain ⟨output, w'⟩ := r
  cases hends with
  | infinite infinite raised =>
    obtain ⟨message, hraised⟩ := raised
    dsimp only at hraised
    subst hraised
    exact .infinite infinite ⟨_, rfl⟩
  | reported k position healthy finite result logged =>
    rcases logged with ⟨hanswered, houtput⟩ | ⟨hlost, e, houtput, hother⟩
    · dsimp only at houtput
      subst houtput
      exact .processed k position healthy finite result (Or.inl ⟨hanswered, rfl⟩)
    · dsimp only at houtput
      subst houtput
      refine .processed k position healthy finite result (Or.inr ⟨hlost, e, ?_, hother⟩)
      cases e with
      | infrastructureUnavailable message => exact absurd rfl (hother message)
      | _ => rfl
  | unavailable k position _ finite raised later =>
    dsimp only at raised
    subst raised
    have hlogged := @logged_logEvent π env container correlationId CallbackResponse _
      (short_mpesaCallback (by decide : "stk_callback_infrastructure_unavailable".length ≤ 128)
        [("reason", .str storageUnavailable.message)])
      (.json 503 "infrastructure_unavailable" storageUnavailable.message) w'
    exact .unavailable k position finite _ (later.logged hlogged)

/-- A check in front of the handler, run in postgres mode: it passes, answers a rejection that is
logged first, or raises where the log cannot be saved. -/
theorem run_checkRuns_postgres {passes raises : Prop} {rejection : CallbackResponse → Prop}
    {p : App (Option CallbackResponse)} (h : CheckRuns passes raises rejection p)
    (w : PostgresWorld π) :
    let r := runPostgres env container correlationId p w
    (passes ∧ ¬ raises ∧ r = (.ok none, w)) ∨ (raises ∧ ∃ e, r.1 = .error e) ∨
      (¬ passes ∧ ¬ raises ∧ ∃ response, Logged env correlationId w 0 (some response) r.1) := by
  intro r
  cases h with
  | passed holds quiet program =>
    subst program
    exact Or.inl ⟨holds, quiet, rfl⟩
  | raised _ raised e program =>
    subst program
    exact Or.inr (Or.inl ⟨raised, e, rfl⟩)
  | rejected fails quiet event short response _ program =>
    subst program
    exact Or.inr (Or.inr ⟨fails, quiet, response, logged_logEvent short (some response) w⟩)

/-- The replay check in postgres mode: the key is free and is taken, or the duplicate is reported,
which saves an audit event and may fail there. -/
theorem run_rejectDuplicate_postgres (payload : PyDict) (w : PostgresWorld π) :
    let r := runPostgres env container correlationId
      (container.callbackRoute.rejectDuplicateCallbackIfNeeded env.toRuntime payload) w
    (w.app.Taken env container payload ∧
      ∃ response, Logged env correlationId w 0 (some response) r.1) ∨
    (¬ w.app.Taken env container payload ∧
      r = (.ok none, { w with app := w.app.admitted env container payload })) := by
  intro r
  have hr : r = runPostgres env container correlationId
    (container.callbackRoute.rejectDuplicateCallbackIfNeeded env.toRuntime payload) w := rfl
  have hcheck : ∀ key windowSeconds,
      handlePostgres env container correlationId (.checkAndStore key windowSeconds) w =
        ((handle env container (.checkAndStore key windowSeconds) w.app).1,
          { w with app := (handle env container (.checkAndStore key windowSeconds) w.app).2 }) :=
    fun _ _ => rfl
  simp only [runPostgres, CallbackRoute.rejectDuplicateCallbackIfNeeded] at hr
  unfold World.Taken World.admitted
  cases henabled : container.settings.callbackReplayProtectionEnabled with
  | false =>
    have hroute : container.callbackRoute.settings.callbackReplayProtectionEnabled = false := henabled
    rw [hroute] at hr
    exact Or.inr ⟨fun h => absurd h.1 (by decide), hr⟩
  | true =>
    have hroute : container.callbackRoute.settings.callbackReplayProtectionEnabled = true := henabled
    simp only [hroute, if_true, Prog.run_bind, Prog.run_attempt, run_ask, hcheck] at hr
    by_cases hlive : ReplayStore.Live w.app.seen (buildCallbackReplayKey env.toRuntime payload)
        (w.app.ambient.monotonic env).1
    · left
      let w' : PostgresWorld π :=
        { w with app := { w.app with ambient := (w.app.ambient.monotonic env).2 } }
      have hlater : Later w 0 w' := ⟨rfl, rfl, rfl⟩
      rw [run_checkAndStore_live env container hlive] at hr
      rw [hr]
      refine ⟨⟨rfl, hlive⟩, .json 409 "duplicate_callback" "Duplicate callback replay detected.", ?_⟩
      exact hlater.logged (logged_logEvent
        (short_mpesaCallback (by decide : "stk_callback_duplicate".length ≤ 128) _) _ w')
    · right
      rw [run_checkAndStore_free env container hlive] at hr
      exact ⟨fun h => hlive h.2, hr⟩

/-- A rejection that is reported ends the request. -/
theorem Logged.ends {p : App (Option CallbackResponse)} {w : PostgresWorld π}
    {response : CallbackResponse} (h : Logged env correlationId w 0 (some response)
      (runPostgres env container correlationId p w).1) (rest : App CallbackResponse) :
    Logged env correlationId w 0 response
      (runPostgres env container correlationId (p >>= afterCheck rest) w).1 := by
  simp only [runPostgres, Prog.run_bind] at h ⊢
  generalize Prog.run (handlePostgres env container correlationId) p w = r at h ⊢
  obtain ⟨output, w'⟩ := r
  rcases h with ⟨hanswered, rfl⟩ | ⟨hlost, e, rfl, hother⟩
  · exact Or.inl ⟨hanswered, rfl⟩
  · exact Or.inr ⟨hlost, e, rfl, hother⟩

/-- A check that passes hands on to the rest of the route. -/
theorem passes_bind {p : App (Option CallbackResponse)} {w w' : PostgresWorld π}
    (h : runPostgres env container correlationId p w = (.ok none, w')) (rest : App CallbackResponse) :
    runPostgres env container correlationId (p >>= afterCheck rest) w =
      runPostgres env container correlationId rest w' := by
  simp only [runPostgres, Prog.run_bind] at h ⊢
  rw [h]
  rfl

/-- An exception ends a sequence. -/
theorem raises_bind {p : App (Option CallbackResponse)} {w : PostgresWorld π} {e : Exn}
    (h : (runPostgres env container correlationId p w).1 = .error e)
    (k : Option CallbackResponse → App CallbackResponse) :
    (runPostgres env container correlationId (p >>= k) w).1 = .error e := by
  simp only [runPostgres, Prog.run_bind] at h ⊢
  generalize Prog.run (handlePostgres env container correlationId) p w = r at h ⊢
  obtain ⟨output, w'⟩ := r
  dsimp only at h
  subst h
  rfl

/-- **What the route answers in postgres mode.** -/
theorem post_ends (postgres : container.transactionRepository = PostgresTransactionRepository)
    (request : CallbackRequest) (w : PostgresWorld π) :
    PostEnds env container correlationId request w (runPostgres env container correlationId
      (container.callbackRoute.post env.toRuntime request) w).1 := by
  rw [post_eq]
  rcases @run_checkRuns_postgres π env container correlationId _ _ _ _
      (validateCallbackSecret_runs container.callbackRoute request.callbackSecret) w with
    ⟨hsecret, hquiet, hrun⟩ | ⟨hraises, e, hrun⟩ | ⟨hinvalid, hquiet, response, hlogged⟩
  · rw [passes_bind hrun]
    rcases @run_checkRuns_postgres π env container correlationId _ _ _ _
        (rejectUntrusted_runs container.callbackRoute request.headers) w with
      ⟨hsource, hquiet', hrun⟩ | ⟨hraises, e, hrun⟩ | ⟨huntrusted, hquiet', response, hlogged⟩
    · have hchecked : ¬ container.callbackRoute.ChecksRaise request :=
        fun h => h.elim hquiet fun h => hquiet' h.2
      rw [passes_bind hrun]
      rcases @run_rejectDuplicate_postgres π env container correlationId request.payload w with
        ⟨htaken, response, hlogged⟩ | ⟨hfree, hrun⟩
      · exact .stopped hchecked (fun h => h.free htaken) response (hlogged.ends _)
      · rw [passes_bind hrun]
        exact .delivered hchecked ⟨⟨hsecret, hsource⟩, hfree⟩
          (processCallback_ends postgres request.payload (w.admitted env container request.payload))
    · refine .raised (Or.inr ⟨hsecret, hraises⟩) ⟨e, ?_⟩
      exact raises_bind hrun _
    · refine .stopped ?_ (fun h => huntrusted h.authenticated.2) response (hlogged.ends _)
      rintro (h | ⟨-, h⟩)
      · exact hquiet h
      · exact hquiet' h
  · exact .raised (Or.inl hraises) ⟨e, raises_bind hrun _⟩
  · refine .stopped ?_ (fun h => hinvalid h.authenticated.1) response (hlogged.ends _)
    rintro (h | ⟨h, -⟩)
    · exact hquiet h
    · exact hinvalid h

/-- What a request needs for an answer: no check raises, the numbers that are converted are finite, and
the one audit event of the request is written. -/
structure Answerable (env : Env) (container : AppContainer TransactionTable π)
    (correlationId : Option String) (request : CallbackRequest) (w : PostgresWorld π) : Prop where
  quiet : ¬ container.callbackRoute.ChecksRaise request
  stopped : ¬ Delivered env container request w → AuditAnswered env correlationId w 0
  finite : Delivered env container request w →
    FiniteNumbers env container request.payload (w.admitted env container request.payload).app.store
  delivered : Delivered env container request w →
    ∃ k, AuditPosition env request.payload (w.admitted env container request.payload).app k ∧
      AuditAnswered env correlationId (w.admitted env container request.payload) k

/-- Where the audit is answered, so is the delivery. -/
theorem Logged.answer {α : Type} {w : PostgresWorld π} {k : Nat} {a : α} {output : Except Exn α}
    (h : Logged env correlationId w k a output) (answered : AuditAnswered env correlationId w k) :
    output = .ok a :=
  h.elim And.right fun hlost => absurd answered hlost.1

/-- A delivery is answered only where its audit is. -/
theorem Logged.answered {α : Type} {w : PostgresWorld π} {k : Nat} {a b : α} {output : Except Exn α}
    (h : Logged env correlationId w k a output) (ok : output = .ok b) :
    AuditAnswered env correlationId w k := by
  rcases h with ⟨hanswered, -⟩ | ⟨-, e, herror, -⟩
  · exact hanswered
  · cases ok.symm.trans herror

/-- **When the route answers.** A request is answered, with 503 where a statement of its transaction
failed, exactly where it is `Answerable`. -/
theorem post_answers_iff (env : Env) (settings : Settings) (verifier : CallbackSourceVerifier)
    (provider : PaymentProvider π) (correlationId : Option String) (request : CallbackRequest)
    (w : PostgresWorld π) :
    let container := AppContainer.postgres settings verifier provider
    (∃ response,
      (runPostgres env container correlationId
        (container.callbackRoute.post env.toRuntime request) w).1 = .ok response ∧
      (Delivered env container request w →
        StatementFails env request.payload (w.admitted env container request.payload).app →
        ∃ reason, response = .json 503 "infrastructure_unavailable" reason)) ↔
      Answerable env container correlationId request w := by
  intro container
  have hends := @post_ends π env container correlationId rfl request w
  constructor
  · rintro ⟨response, hok, -⟩
    cases hends with
    | raised _ raised =>
      obtain ⟨e, herror⟩ := raised
      cases hok.symm.trans herror
    | stopped quiet stopped _ logged =>
      exact ⟨quiet, fun _ => logged.answered hok, fun d => absurd d stopped, fun d => absurd d stopped⟩
    | delivered quiet delivered ends =>
      refine ⟨quiet, fun h => absurd delivered h, fun _ => ?_, fun _ => ?_⟩
      · cases ends with
        | infinite _ raised =>
          obtain ⟨e, herror⟩ := raised
          cases hok.symm.trans herror
        | processed _ _ _ finite => exact finite
        | unavailable _ _ finite => exact finite
      · cases ends with
        | infinite _ raised =>
          obtain ⟨e, herror⟩ := raised
          cases hok.symm.trans herror
        | processed k position _ _ _ logged => exact ⟨k, position, logged.answered hok⟩
        | unavailable k position _ _ logged => exact ⟨k, position, logged.answered hok⟩
  · intro h
    cases hends with
    | raised raises _ => exact absurd raises h.quiet
    | stopped _ stopped response logged =>
      exact ⟨response, logged.answer (h.stopped stopped), fun d => absurd d stopped⟩
    | delivered _ delivered ends =>
      obtain ⟨j, hj, hanswered⟩ := h.delivered delivered
      cases ends with
      | infinite infinite _ => exact absurd (h.finite delivered) infinite
      | processed k position healthy _ result logged =>
        cases position.unique hj
        exact ⟨_, logged.answer hanswered, fun _ fails => absurd fails healthy⟩
      | unavailable k position _ reason logged =>
        cases position.unique hj
        exact ⟨_, logged.answer hanswered, fun _ _ => ⟨reason, rfl⟩⟩

end Route

/-! ## An outage -/

/-- A callback with a finite result code. -/
def outageCallback : PyDict :=
  [("Body", .dict [("stkCallback", .dict [("CheckoutRequestID", .str "ws_CO_1"),
    ("ResultCode", .int 1), ("ResultDesc", .str "Request cancelled by user")])])]

/-- Surroundings in which no statement is answered. -/
def Env.outage : Env := { Env.still with databaseFails := fun _ => true }

/-- The lookup fails, and so does the audit event about it: the error of the audit table leaves the
route. -/
theorem outage_escapes :
    let container := AppContainer.postgres {} .development MockDarajaPaymentProvider
    (runPostgres .outage container none
        (container.callbackRoute.post Env.outage.toRuntime { payload := outageCallback })
        { app := start TransactionTable.empty () }).1 =
      .error (.sqlAlchemyError "the database did not answer") := by
  rfl

end MpesaMcp
