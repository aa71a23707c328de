import MpesaMcp.Laws.Database
import MpesaMcp.Laws.ReplayProtection

/-!
# The in-memory repository stands in for Postgres

The two repositories answer the same calls side by side, each in surroundings of its own, and the
database returns rows in whatever order it likes. While no call violates a constraint of the table and
saved transactions are created at different times, both give the same results and raise the same
errors, up to `updated_at` and to the order of the lists that the SQL leaves unordered.

What carries the induction is `Matches`: the dictionary and the table hold the same records up to order
and `updated_at`, and no two rows were created at the same time. A scan for the first match then finds
the same record in both because the table keeps checkout request ids and idempotency keys unique, and
the recent transactions come in the same order because no two of them tie.
-/

set_option autoImplicit false

namespace MpesaMcp

open Library Python

/-! ## The pair -/

/-- A call of both repositories, with the surroundings each of them answers in. The database answers
every statement. -/
structure RepositoryCall where
  method : TransactionRepositoryProtocol
  memoryEnv : Env
  postgresEnv : Env
  order : RowOrder
  answered : ∀ n, postgresEnv.databaseFails n = false

/-- The stores of both repositories, and what their surroundings have given them so far. -/
structure Twin where
  memoryAmbient : Ambient
  memory : Transactions
  postgresAmbient : Ambient
  table : TransactionTable

/-- Both stores empty. -/
def Twin.empty (memoryAmbient postgresAmbient : Ambient) : Twin where
  memoryAmbient := memoryAmbient
  memory := Keyed.empty
  postgresAmbient := postgresAmbient
  table := .empty

/-- What the two repositories made of one call. -/
structure TwinAnswer where
  method : TransactionRepositoryProtocol
  memory : Except Exn method.Answer
  postgres : Except Exn method.Answer

/-- Both repositories answer the call; the database picks an order for its rows. -/
def RepositoryCall.answer (call : RepositoryCall) (w : Twin) : TwinAnswer × Twin :=
  let inMemory := InMemoryTransactionRepository.answer call.memoryEnv call.method
    (w.memoryAmbient, w.memory)
  let inPostgres := PostgresTransactionRepository.answer call.postgresEnv call.method
    (w.postgresAmbient, w.table.arrange call.order)
  (⟨call.method, inMemory.1, inPostgres.1⟩,
    ⟨inMemory.2.1, inMemory.2.2, inPostgres.2.1, inPostgres.2.2⟩)

/-! ## What is compared -/

/-- A record without the time of its last update. -/
def PendingTransaction.withoutUpdatedAt (transaction : PendingTransaction) : PendingTransaction :=
  { transaction with updatedAt := .epoch }

/-- Answers of one method that agree: the SQL orders the recent transactions and no other list. -/
def AnswersAgree : (m : TransactionRepositoryProtocol) → m.Answer → m.Answer → Prop
  | .savePendingTransaction _, r, s => r.withoutUpdatedAt = s.withoutUpdatedAt
  | .getTransaction _, r, s => r.map (·.withoutUpdatedAt) = s.map (·.withoutUpdatedAt)
  | .findByCheckoutRequestId _, r, s => r.map (·.withoutUpdatedAt) = s.map (·.withoutUpdatedAt)
  | .findByIdempotencyKey _, r, s => r.map (·.withoutUpdatedAt) = s.map (·.withoutUpdatedAt)
  | .updateTransactionStatus _, r, s => r.map (·.withoutUpdatedAt) = s.map (·.withoutUpdatedAt)
  | .listTransactions, rs, ss => (rs.map (·.withoutUpdatedAt)).Perm (ss.map (·.withoutUpdatedAt))
  | .listRecentTransactions _, rs, ss => rs.map (·.withoutUpdatedAt) = ss.map (·.withoutUpdatedAt)
  | .listTransactionsByStatus _, rs, ss =>
    (rs.map (·.withoutUpdatedAt)).Perm (ss.map (·.withoutUpdatedAt))
  | .listTransactionsForDate _, rs, ss =>
    (rs.map (·.withoutUpdatedAt)).Perm (ss.map (·.withoutUpdatedAt))

/-- Both return and agree, or both raise the same error. -/
def TwinAnswer.Agrees (r : TwinAnswer) : Prop :=
  (∃ x y, r.memory = .ok x ∧ r.postgres = .ok y ∧ AnswersAgree r.method x y) ∨
    ∃ e, r.memory = .error e ∧ r.postgres = .error e

/-! ## The calls in question -/

/-- A save that draws the same identifier and the same creation time on both sides, a time at which no
stored transaction was created, and whose row violates no constraint. -/
structure SaveAdmissible (memoryEnv postgresEnv : Env) (args : SavePendingTransaction) (w : Twin) :
    Prop where
  sameId : memoryEnv.uuid4 w.memoryAmbient.uuidDraws = postgresEnv.uuid4 w.postgresAmbient.uuidDraws
  sameTime :
    memoryEnv.clock w.memoryAmbient.clockReads = postgresEnv.clock w.postgresAmbient.clockReads
  newTime : ∀ row ∈ w.table.rows.values,
    row.createdAt ≠ postgresEnv.clock w.postgresAmbient.clockReads
  columns : ColumnsHold (savedRow postgresEnv w.postgresAmbient args)
  unique : ∀ row ∈ w.table.rows.values, ¬ Conflict row (savedRow postgresEnv w.postgresAmbient args)

/-- An update that violates no constraint of the row it writes. -/
def UpdateAdmissible (postgresEnv : Env) (args : UpdateTransactionStatus) (w : Twin) : Prop :=
  ∀ row ∈ w.table.rows.values, row.checkoutRequestId = args.checkoutRequestId →
    ∀ status ∈ (validateTransition row.status args.status).toOption,
      ColumnsHold (args.apply row status (postgresEnv.clock w.postgresAmbient.clockReads))

/-- What a call must satisfy where it is made. -/
def RepositoryCall.Permitted (call : RepositoryCall) (w : Twin) : Prop :=
  match call.method with
  | .savePendingTransaction args => SaveAdmissible call.memoryEnv call.postgresEnv args w
  | .updateTransactionStatus args => UpdateAdmissible call.postgresEnv args w
  | .listRecentTransactions limit => 1 ≤ limit
  | _ => True

instance (memoryEnv postgresEnv : Env) (args : SavePendingTransaction) (w : Twin) :
    Decidable (SaveAdmissible memoryEnv postgresEnv args w) :=
  decidable_of_iff
    (memoryEnv.uuid4 w.memoryAmbient.uuidDraws = postgresEnv.uuid4 w.postgresAmbient.uuidDraws ∧
      memoryEnv.clock w.memoryAmbient.clockReads = postgresEnv.clock w.postgresAmbient.clockReads ∧
      (∀ row ∈ w.table.rows.values,
        row.createdAt ≠ postgresEnv.clock w.postgresAmbient.clockReads) ∧
      ColumnsHold (savedRow postgresEnv w.postgresAmbient args) ∧
      ∀ row ∈ w.table.rows.values, ¬ Conflict row (savedRow postgresEnv w.postgresAmbient args))
    ⟨fun ⟨a, b, c, d, e⟩ => ⟨a, b, c, d, e⟩, fun ⟨a, b, c, d, e⟩ => ⟨a, b, c, d, e⟩⟩

instance (postgresEnv : Env) (args : UpdateTransactionStatus) (w : Twin) :
    Decidable (UpdateAdmissible postgresEnv args w) := by
  unfold UpdateAdmissible
  infer_instance

instance (call : RepositoryCall) (w : Twin) : Decidable (call.Permitted w) :=
  match call with
  | ⟨.savePendingTransaction args, memoryEnv, postgresEnv, _, _⟩ =>
    inferInstanceAs (Decidable (SaveAdmissible memoryEnv postgresEnv args w))
  | ⟨.updateTransactionStatus args, _, postgresEnv, _, _⟩ =>
    inferInstanceAs (Decidable (UpdateAdmissible postgresEnv args w))
  | ⟨.listRecentTransactions limit, _, _, _, _⟩ => inferInstanceAs (Decidable (1 ≤ limit))
  | ⟨.getTransaction _, _, _, _, _⟩ => .isTrue trivial
  | ⟨.findByCheckoutRequestId _, _, _, _, _⟩ => .isTrue trivial
  | ⟨.findByIdempotencyKey _, _, _, _, _⟩ => .isTrue trivial
  | ⟨.listTransactions, _, _, _, _⟩ => .isTrue trivial
  | ⟨.listTransactionsByStatus _, _, _, _, _⟩ => .isTrue trivial
  | ⟨.listTransactionsForDate _, _, _, _, _⟩ => .isTrue trivial

/-! ## Two stores that match -/

theorem withoutUpdatedAt_eq_iff {r s : PendingTransaction} :
    r.withoutUpdatedAt = s.withoutUpdatedAt ↔ SameButUpdatedAt r s := by
  constructor
  · intro h
    refine ⟨s.updatedAt, ?_⟩
    cases r
    cases s
    simp only [PendingTransaction.withoutUpdatedAt, PendingTransaction.mk.injEq] at h ⊢
    simp [h]
  · rintro ⟨updatedAt, rfl⟩
    rfl

/-- The same records up to order and `updated_at`, and no two rows created at the same time. -/
structure Matches (memory : Transactions) (table : TransactionTable) : Prop where
  records : (memory.values.map (·.withoutUpdatedAt)).Perm
    (table.rows.values.map (·.withoutUpdatedAt))
  created : ∀ r ∈ table.rows.values, ∀ s ∈ table.rows.values, r.createdAt = s.createdAt → r = s

namespace Matches

theorem empty : Matches Keyed.empty .empty where
  records := .refl _
  created := fun _ h => nomatch h

variable {memory : Transactions} {t : TransactionTable}

/-- The order of the rows is open. -/
theorem arrange (m : Matches memory t) (order : RowOrder) : Matches memory (t.arrange order) where
  records := m.records.trans ((order.perm _).map _).symm
  created r hr s hs := m.created r ((order.perm _).mem_iff.mp hr) s ((order.perm _).mem_iff.mp hs)

/-- Records that agree are stored on both sides, at a creation time of their own. -/
theorem put {t' : TransactionTable} {r s : PendingTransaction} (m : Matches memory t)
    (same : r.withoutUpdatedAt = s.withoutUpdatedAt) (rows : t'.rows = t.rows.put s)
    (apart : ∀ other ∈ t.rows.values, other.transactionId ≠ s.transactionId →
      other.createdAt ≠ s.createdAt) : Matches (memory.put r) t' where
  records := by
    rw [rows]
    exact Keyed.map_put_of_perm (k := PendingTransaction.transactionId) (fun _ => rfl) same m.records
  created := by
    rw [rows]
    intro x hx y hy h
    rcases Keyed.mem_values_put.mp hx with hxs | ⟨hxt, hnex⟩
    · rcases Keyed.mem_values_put.mp hy with hys | ⟨hyt, hney⟩
      · rw [hxs, hys]
      · exact absurd (h.symm.trans (congrArg _ hxs)) (apart y hyt hney)
    · rcases Keyed.mem_values_put.mp hy with hys | ⟨hyt, hney⟩
      · exact absurd (h.trans (congrArg _ hys)) (apart x hxt hnex)
      · exact m.created x hxt y hyt h

/-! ## Reading -/

theorem get (m : Matches memory t) (transactionId : String) :
    (memory.get transactionId).map (·.withoutUpdatedAt) =
      (t.rows.get transactionId).map (·.withoutUpdatedAt) := by
  refine map_find?_of_perm (q := fun r => decide (r.transactionId = transactionId)) m.records ?_
  intro r hr s hs hrid hsid
  have hid : r.transactionId = s.transactionId :=
    (of_decide_eq_true hrid).trans (of_decide_eq_true hsid).symm
  rw [t.eq_of_conflict hr hs (Or.inl hid)]

theorem firstMatch (m : Matches memory t) (checkoutRequestId : String) :
    (MpesaMcp.firstMatch checkoutRequestId memory).map (·.withoutUpdatedAt) =
      (MpesaMcp.firstMatch checkoutRequestId t.rows).map (·.withoutUpdatedAt) := by
  refine map_find?_of_perm (q := fun r => decide (r.checkoutRequestId = checkoutRequestId))
    m.records ?_
  intro r hr s hs hrid hsid
  have hid : r.checkoutRequestId = s.checkoutRequestId :=
    (of_decide_eq_true hrid).trans (of_decide_eq_true hsid).symm
  rw [t.eq_of_conflict hr hs (Or.inr (Or.inl hid))]

theorem findByIdempotencyKey (m : Matches memory t) (idempotencyKey : String) :
    (InMemoryTransactionRepository.findByIdempotencyKey idempotencyKey memory).map
        (·.withoutUpdatedAt) =
      (InMemoryTransactionRepository.findByIdempotencyKey idempotencyKey t.rows).map
        (·.withoutUpdatedAt) := by
  refine map_find?_of_perm (q := fun r => decide (r.idempotencyKey = some idempotencyKey))
    m.records ?_
  intro r hr s hs hrkey hskey
  have hr' : r.idempotencyKey = some idempotencyKey := of_decide_eq_true hrkey
  have hs' : s.idempotencyKey = some idempotencyKey := of_decide_eq_true hskey
  have hconflict : Conflict r s :=
    Or.inr (Or.inr (Or.inl ⟨by rw [hr']; rfl, hr'.trans hs'.symm⟩))
  rw [t.eq_of_conflict hr hs hconflict]

/-- No two rows tie, so that the order by creation time is the order of one list. -/
theorem recent (m : Matches memory t) :
    (memory.values.mergeSort fun r s => decide (s.createdAt ≤ r.createdAt)).map
        (·.withoutUpdatedAt) =
      (t.rows.values.mergeSort fun r s => decide (s.createdAt ≤ r.createdAt)).map
        (·.withoutUpdatedAt) := by
  refine map_mergeSort_of_perm (r := fun r s => decide (s.createdAt ≤ r.createdAt)) ?_ ?_ ?_
    m.records
  · intro a b c hab hbc
    exact decide_eq_true (le_trans (of_decide_eq_true hbc) (of_decide_eq_true hab))
  · intro a b
    simpa using le_total b.createdAt a.createdAt
  · intro r hr s hs hrs hsr
    have htie : r.createdAt = s.createdAt :=
      le_antisymm (of_decide_eq_true hsr) (of_decide_eq_true hrs)
    rw [m.created r hr s hs htie]

theorem byStatus (m : Matches memory t) (status : String) :
    ((memory.values.filter fun r => decide (r.status.value = status)).map (·.withoutUpdatedAt)).Perm
      ((t.rows.values.filter fun r => decide (r.status.value = status)).map
        (·.withoutUpdatedAt)) :=
  map_filter_of_perm (fun r : PendingTransaction => decide (r.status.value = status)) m.records

end Matches

/-- A point in time lies on a day from its first to its last microsecond. -/
theorem date_eq_iff (t : Datetime) (day : Date) :
    t.date = day ↔ day * 86400000000 ≤ t.1 ∧ t.1 ≤ day * 86400000000 + 86399999999 := by
  have hday : ∀ a b : Int, a / 86400000000 = b ↔
      b * 86400000000 ≤ a ∧ a ≤ b * 86400000000 + 86399999999 := by
    intro a b
    omega
  exact hday t.1 day

theorem Matches.forDate {memory : Transactions} {t : TransactionTable} (m : Matches memory t)
    (day : Date) :
    ((memory.values.filter fun r => decide (r.createdAt.date = day)).map (·.withoutUpdatedAt)).Perm
      ((t.rows.values.filter fun r => decide (day * 86400000000 ≤ r.createdAt.1 ∧
        r.createdAt.1 ≤ day * 86400000000 + 86399999999)).map (·.withoutUpdatedAt)) := by
  simp only [← date_eq_iff]
  exact map_filter_of_perm (fun r : PendingTransaction => decide (r.createdAt.date = day)) m.records

/-! ## One call -/

section Call

variable (env : Env) (a : Ambient) (t : TransactionTable)

/-- A method that sends one SELECT. -/
theorem run_select {c : DatabaseCall} {x : c.Answer}
    (answered : env.databaseFails a.statements = false)
    (statement : TransactionTable.IsStatement c = true)
    (executed : t.execute c (a.after 1) env = (.ok x, a.after 1, t)) :
    Prog.run (TransactionTable.answer env)
        ((PostgresTransactionRepository.query c).translate PostgresTransactionRepository.unavailable)
        (a, t) = (.ok x, a.after 1, t) := by
  rw [Prog.run_translate, run_query, answer_statement env a t statement, answered,
    if_neg Bool.false_ne_true, executed]
  rfl

variable {env a t} {args : UpdateTransactionStatus} {row : PendingTransaction}

/-- An update that finds no row. -/
theorem postgres_update_none (answered : ∀ n, env.databaseFails n = false)
    (found : firstMatch args.checkoutRequestId t.rows = none) :
    PostgresTransactionRepository.answer env (.updateTransactionStatus args) (a, t) =
      (.ok none, a.after 1, t) := by
  show Prog.run _ (PostgresTransactionRepository.updateTransactionStatus args) _ = _
  rw [PostgresTransactionRepository.updateTransactionStatus, Prog.run_translate,
    PostgresTransactionRepository.updateRow, Prog.run_bind, run_query,
    answer_select env a t (answered _), found]
  rfl

/-- An update whose transition does not validate. -/
theorem postgres_update_invalid {e : Exn} (answered : ∀ n, env.databaseFails n = false)
    (found : firstMatch args.checkoutRequestId t.rows = some row)
    (invalid : validateTransition row.status args.status = .error e) :
    PostgresTransactionRepository.answer env (.updateTransactionStatus args) (a, t) =
      (.error e, a.after 1, t) := by
  show Prog.run _ (PostgresTransactionRepository.updateTransactionStatus args) _ = _
  rw [PostgresTransactionRepository.updateTransactionStatus, Prog.run_translate,
    PostgresTransactionRepository.updateRow, Prog.run_bind, run_query,
    answer_select env a t (answered _), found]
  simp only [invalid, Prog.run_raise]
  rw [validateTransition_error invalid]
  rfl

/-- An update that writes its row. -/
theorem postgres_update_valid {status : TransactionStatus}
    (answered : ∀ n, env.databaseFails n = false)
    (found : firstMatch args.checkoutRequestId t.rows = some row)
    (valid : validateTransition row.status args.status = .ok status)
    (fits : ColumnsHold (args.apply row status (env.clock a.clockReads))) :
    let r := PostgresTransactionRepository.answer env (.updateTransactionStatus args) (a, t)
    r.1 = .ok (some (args.apply row status (env.clock a.clockReads))) ∧
      r.2.2.rows = t.rows.put (args.apply row status (env.clock a.clockReads)) := by
  intro r
  have hr : r = Prog.run (TransactionTable.answer env)
    ((PostgresTransactionRepository.updateRow args).translate
      PostgresTransactionRepository.integrityOrUnavailable) (a, t) := rfl
  rw [Prog.run_translate, run_validUpdate env a t found valid (answered _)] at hr
  have hcommit := run_commitAndRefresh env ((a.after 1).now env).2 t row
    (args.apply row status (env.clock a.clockReads)) (get_of_firstMatch found).1
    (writeChanges_self row _) rfl
  rw [hr]
  rcases hcommit with ⟨_, -, -, hcause⟩ | ⟨-, -, hrows, ⟨hfails, -⟩ | ⟨-, hanswer⟩⟩
  · exact absurd ⟨answered _, fits⟩ hcause
  · exact absurd hfails (by rw [answered]; decide)
  · exact ⟨by rw [hanswer]; rfl, hrows⟩

end Call

/-- A step of the pair after which the stores match, with answers that agree. -/
structure Kept (r : TwinAnswer × Twin) : Prop where
  stores : Matches r.2.memory r.2.table
  answers : r.1.Agrees

section Kept

variable {memoryEnv postgresEnv : Env} {order : RowOrder}
  {answered : ∀ n, postgresEnv.databaseFails n = false} {w : Twin}

theorem kept_save {args : SavePendingTransaction} (m : Matches w.memory w.table)
    (h : SaveAdmissible memoryEnv postgresEnv args w) :
    Kept (RepositoryCall.answer
      ⟨.savePendingTransaction args, memoryEnv, postgresEnv, order, answered⟩ w) := by
  obtain ⟨-, hsave⟩ := postgres_save postgresEnv w.postgresAmbient (w.table.arrange order) args
  have hstored : ∀ row ∈ (w.table.arrange order).rows.values, row ∈ w.table.rows.values :=
    fun row hrow => (order.perm _).mem_iff.mp hrow
  have hinsert : Insertable postgresEnv (w.table.arrange order) w.postgresAmbient.statements
      (savedRow postgresEnv w.postgresAmbient args) :=
    ⟨answered _, h.columns, fun row hrow => h.unique row (hstored row hrow)⟩
  have hsame : (args.record (memoryEnv.uuid4 w.memoryAmbient.uuidDraws)
      (memoryEnv.clock w.memoryAmbient.clockReads)
      (memoryEnv.clock (w.memoryAmbient.clockReads + 1))).withoutUpdatedAt =
        (savedRow postgresEnv w.postgresAmbient args).withoutUpdatedAt := by
    rw [h.sameId, h.sameTime]
    rfl
  cases hsave with
  | refused e answer same cause => exact absurd hinsert cause
  | unread insertable put lost e answer => exact absurd lost (by rw [answered]; decide)
  | saved insertable put read answer =>
    refine ⟨(m.arrange order).put hsame put fun other hother _ => ?_, ?_⟩
    · exact h.newTime other (hstored other hother)
    · exact Or.inl ⟨_, _, rfl, answer, hsame⟩

theorem kept_update {args : UpdateTransactionStatus} (m : Matches w.memory w.table)
    (h : UpdateAdmissible postgresEnv args w) :
    Kept (RepositoryCall.answer
      ⟨.updateTransactionStatus args, memoryEnv, postgresEnv, order, answered⟩ w) := by
  have hm := m.arrange order
  have hfound := hm.firstMatch args.checkoutRequestId
  rcases memory_update memoryEnv (w.memoryAmbient, w.memory) args with
    ⟨hnone, hr⟩ | ⟨row, e, hsome, hinvalid, hr⟩ | ⟨row, status, hsome, hvalid, hr⟩
  · -- neither store has the transaction
    rw [hnone] at hfound
    have hs := postgres_update_none (a := w.postgresAmbient) answered
      (Option.map_eq_none_iff.mp hfound.symm)
    simp only [RepositoryCall.answer, hr, hs]
    exact ⟨hm, Or.inl ⟨_, _, rfl, rfl, rfl⟩⟩
  · -- both stores have it in a status that the transition does not leave
    rw [hsome] at hfound
    obtain ⟨row', hsome', hrow⟩ := Option.map_eq_some_iff.mp hfound.symm
    have hstatus : row'.status = row.status := (withoutUpdatedAt_eq_iff.mp hrow).status
    have hs := postgres_update_invalid (a := w.postgresAmbient) answered hsome'
      (hstatus ▸ hinvalid)
    simp only [RepositoryCall.answer, hr, hs]
    exact ⟨hm, Or.inr ⟨e, rfl, rfl⟩⟩
  · -- both stores move it
    rw [hsome] at hfound
    obtain ⟨row', hsome', hrow⟩ := Option.map_eq_some_iff.mp hfound.symm
    have hstatus : row'.status = row.status := (withoutUpdatedAt_eq_iff.mp hrow).status
    have hvalid' : validateTransition row'.status args.status = .ok status := hstatus ▸ hvalid
    obtain ⟨hget, hid⟩ := get_of_firstMatch hsome'
    have hmem : row' ∈ (w.table.arrange order).rows.values := Keyed.mem_of_get hget
    have hfits : ColumnsHold (args.apply row' status
        (postgresEnv.clock w.postgresAmbient.clockReads)) := by
      refine h row' ((order.perm _).mem_iff.mp hmem) hid status ?_
      rw [hvalid']
      rfl
    obtain ⟨hanswer, hput⟩ := postgres_update_valid (a := w.postgresAmbient) answered hsome' hvalid'
      hfits
    have hsame :
        (args.apply row status (memoryEnv.clock w.memoryAmbient.clockReads)).withoutUpdatedAt =
          (args.apply row' status
            (postgresEnv.clock w.postgresAmbient.clockReads)).withoutUpdatedAt :=
      withoutUpdatedAt_eq_iff.mpr ((withoutUpdatedAt_eq_iff.mp hrow.symm).apply args status _ _)
    simp only [RepositoryCall.answer, hr]
    refine ⟨hm.put hsame hput fun other hother hne htie => ?_, ?_⟩
    · rw [hm.created other hother row' hmem htie] at hne
      exact hne rfl
    · exact Or.inl ⟨_, _, rfl, hanswer, congrArg some hsame⟩

/-- A step that neither store records. -/
theorem kept_read {call : RepositoryCall} {x y : call.method.Answer}
    (m : Matches w.memory w.table)
    (inMemory : InMemoryTransactionRepository.answer call.memoryEnv call.method
      (w.memoryAmbient, w.memory) = (.ok x, w.memoryAmbient, w.memory))
    (inPostgres : PostgresTransactionRepository.answer call.postgresEnv call.method
      (w.postgresAmbient, w.table.arrange call.order) =
        (.ok y, w.postgresAmbient.after 1, w.table.arrange call.order))
    (agree : AnswersAgree call.method x y) : Kept (call.answer w) := by
  simp only [RepositoryCall.answer, inMemory, inPostgres]
  exact ⟨m.arrange call.order, Or.inl ⟨x, y, rfl, rfl, agree⟩⟩

/-- A limit that counts from the start of the list. -/
theorem kept_recent {limit : Int} (m : Matches w.memory w.table) (positive : 1 ≤ limit) :
    Kept (RepositoryCall.answer
      ⟨.listRecentTransactions limit, memoryEnv, postgresEnv, order, answered⟩ w) := by
  have hm := m.arrange order
  have hlimit : 0 ≤ limit := by omega
  have hmemory : InMemoryTransactionRepository.listRecentTransactions limit w.memory =
      (w.memory.values.mergeSort fun r s => decide (s.createdAt ≤ r.createdAt)).take limit.toNat := by
    rw [InMemoryTransactionRepository.listRecentTransactions, takeLimit, if_pos hlimit]
  refine kept_read m (congrArg (fun rows => (Except.ok rows, w.memoryAmbient, w.memory)) hmemory)
    (run_select _ _ _ (answered _) rfl (if_pos hlimit)) ?_
  simp only [AnswersAgree, List.map_take, hm.recent]

/-- **One call**: stores that match still match after a permitted call, and its answers agree. A save
goes behind all rows in both, and an update moves the same transaction in its place. -/
theorem kept_answer {call : RepositoryCall} (m : Matches w.memory w.table)
    (h : call.Permitted w) : Kept (call.answer w) := by
  obtain ⟨method, memoryEnv, postgresEnv, order, answered⟩ := call
  have hm := m.arrange order
  cases method with
  | savePendingTransaction args => exact kept_save m h
  | updateTransactionStatus args => exact kept_update m h
  | getTransaction transactionId =>
    exact kept_read m rfl (run_select _ _ _ (answered _) rfl rfl) (hm.get transactionId)
  | findByCheckoutRequestId checkoutRequestId =>
    exact kept_read m rfl (run_select _ _ _ (answered _) rfl rfl) (hm.firstMatch checkoutRequestId)
  | findByIdempotencyKey idempotencyKey =>
    exact kept_read m rfl (run_select _ _ _ (answered _) rfl rfl)
      (hm.findByIdempotencyKey idempotencyKey)
  | listTransactions =>
    exact kept_read m rfl (run_select _ _ _ (answered _) rfl rfl) hm.records
  | listRecentTransactions limit => exact kept_recent m h
  | listTransactionsByStatus status =>
    exact kept_read m rfl (run_select _ _ _ (answered _) rfl rfl) (hm.byStatus status)
  | listTransactionsForDate targetDate =>
    exact kept_read m rfl (run_select _ _ _ (answered _) rfl rfl) (hm.forDate targetDate)

end Kept

/-! ## Whole runs -/

/-- **The in-memory repository stands in for Postgres**: over every run of permitted calls from empty
stores, the two repositories answer every call alike, by a simulation in which their rows correspond up
to the order in the table and the times of updates. -/
theorem memory_stands_in_for_postgres (memoryAmbient postgresAmbient : Ambient)
    (calls : List RepositoryCall)
    (permitted : ∀ st ∈ trace RepositoryCall.answer (.empty memoryAmbient postgresAmbient) calls,
      st.input.Permitted st.before) :
    ∀ st ∈ trace RepositoryCall.answer (.empty memoryAmbient postgresAmbient) calls,
      st.output.Agrees :=
  steps_of (I := fun w => Matches w.memory w.table) .empty
    (fun _ _ permitted m => ⟨(kept_answer m permitted).stores, (kept_answer m permitted).answers⟩)
    calls permitted

/-- Surroundings in which the clock stands at the start of a day. -/
def Env.onDay (day : Nat) : Env where
  toRuntime := Env.still.toRuntime
  clock _ := if h : day ≤ 2932896 then ⟨day * 86400000000, by omega⟩ else .epoch
  clock_mono := monotone_const
  monotonic := Env.still.monotonic
  monotonic_mono := Env.still.monotonic_mono
  uuid4 := Env.still.uuid4
  uuid4_injective := Env.still.uuid4_injective
  databaseFails _ := false

/-- A call on a day, of a database that returns the newest row first. -/
def RepositoryCall.onDay (day : Nat) (method : TransactionRepositoryProtocol) : RepositoryCall where
  method := method
  memoryEnv := .onDay day
  postgresEnv := .onDay day
  order := ⟨List.reverse, List.reverse_perm⟩
  answered _ := rfl

/-- Two payments on two days, of which the first completes on the third. -/
def twoPayments : List RepositoryCall :=
  [.onDay 1 (.savePendingTransaction
      { phoneNumber := "254708374149", amount := 100, accountReference := "ORDER-1"
        description := "first", checkoutRequestId := "ws_CO_1", merchantRequestId := "1" }),
    .onDay 2 (.savePendingTransaction
      { phoneNumber := "254708374149", amount := 200, accountReference := "ORDER-2"
        description := "second", checkoutRequestId := "ws_CO_2", merchantRequestId := "2" }),
    .onDay 3 (.updateTransactionStatus
      { checkoutRequestId := "ws_CO_1", status := "completed", resultCode := 0
        resultDescription := "done" })]

theorem memory_stands_in_for_postgres_twoPayments :
    (stepAt RepositoryCall.answer (final RepositoryCall.answer (.empty {} {}) twoPayments)
      (.onDay 3 (.listRecentTransactions 1))).output.Agrees ∧
    (final RepositoryCall.answer (.empty {} {}) twoPayments).memory.values.map (·.status) =
      [.completed, .pending] ∧
    (final RepositoryCall.answer (.empty {} {}) twoPayments).table.rows.values.map (·.status) =
      [.pending, .completed] := by
  refine ⟨?_, by decide +kernel, by decide +kernel⟩
  refine memory_stands_in_for_postgres {} {}
    (twoPayments ++ [.onDay 3 (.listRecentTransactions 1)]) (by decide +kernel) _ ?_
  rw [trace_snoc]
  exact List.mem_append_right _ (List.mem_singleton_self _)

end MpesaMcp
