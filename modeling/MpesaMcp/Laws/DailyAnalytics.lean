import MpesaMcp.Laws.Executions
import MpesaMcp.Laws.Listings
import MpesaMcp.Laws.RowStores
import Mathlib.Algebra.BigOperators.Group.Finset.Piecewise
import Mathlib.Algebra.BigOperators.Group.List.Basic
import Mathlib.Order.Interval.Finset.Basic
import Mathlib.Data.Int.Interval

/-!
# Daily summaries

The summaries of all days partition the stored transactions: each is counted on the day it was created,
and the totals of the days add up to those of the store (`sum_groups`). Payments and callbacks leave
only statuses that a summary counts (`CountedRows`), so that its three counts make up its total.
-/

set_option autoImplicit false

namespace Library

/-- Summing by groups is summing. -/
theorem sum_groups {α κ M : Type} [DecidableEq κ] [AddCommMonoid M] (key : α → κ) (g : α → M)
    {S : Finset κ} {l : List α} (inside : ∀ a ∈ l, key a ∈ S) :
    ∑ k ∈ S, ((l.filter fun a => decide (key a = k)).map g).sum = (l.map g).sum := by
  induction l with
  | nil => simp
  | cons a l ih =>
    have hsplit : ∀ k, (((a :: l).filter fun a => decide (key a = k)).map g).sum =
        (if key a = k then g a else 0) + ((l.filter fun a => decide (key a = k)).map g).sum := by
      intro k
      by_cases hk : key a = k
      · simp [hk]
      · simp [hk]
    simp only [hsplit, Finset.sum_add_distrib, Finset.sum_ite_eq, List.map_cons, List.sum_cons,
      if_pos (inside a List.mem_cons_self), ih fun b hb => inside b (List.mem_cons_of_mem _ hb)]

end Library

namespace MpesaMcp

open Library Python

/-! ## Days -/

/-- The days that a point in time can be on. -/
def allDates : Finset Date :=
  @Finset.Icc Int Int.instLinearOrder.toPartialOrder.toPreorder _ (-719162) 2932896

/-- Every date is one of the finitely many that Python has. -/
theorem date_mem (t : Datetime) : t.date ∈ allDates := by
  obtain ⟨t, hmin, hmax⟩ := t
  rw [allDates, Finset.mem_Icc]
  show (-719162 : Int) ≤ t / 86400000000 ∧ t / 86400000000 ≤ (2932896 : Int)
  omega

namespace AnalyticsService

/-- The transactions of a day. -/
def ofDay (rows : List PendingTransaction) (day : Date) : List PendingTransaction :=
  rows.filter fun t => decide (t.createdAt.date = day)

/-- A summary does not depend on the order of the transactions. -/
theorem summarize_perm (day : Date) {xs ys : List PendingTransaction} (h : xs.Perm ys) :
    summarize day xs = summarize day ys := by
  have hstatus : ∀ status, (withStatus status xs).Perm (withStatus status ys) := fun _ => h.filter _
  simp only [summarize, h.length_eq, (hstatus .completed).length_eq, (hstatus .failed).length_eq,
    (hstatus .pending).length_eq, ((hstatus .completed).map _).sum_eq]

/-- The totals of all days. -/
theorem sum_total (rows : List PendingTransaction) :
    ∑ day ∈ allDates, (summarize day (ofDay rows day)).totalTransactions = rows.length := by
  have hsum := sum_groups (fun t : PendingTransaction => t.createdAt.date) (fun _ => 1)
    (S := allDates) (l := rows) fun t _ => date_mem t.createdAt
  simpa [summarize, ofDay] using hsum

/-- Each completed payment is counted on one day, so the revenues of the days add up to that of all. -/
theorem sum_revenue (rows : List PendingTransaction) :
    ∑ day ∈ allDates, (summarize day (ofDay rows day)).totalRevenue =
      ((withStatus .completed rows).map PendingTransaction.amount).sum := by
  have hsum := sum_groups (fun t : PendingTransaction => t.createdAt.date) PendingTransaction.amount
    (S := allDates) (l := withStatus .completed rows) fun t _ => date_mem t.createdAt
  rw [← hsum]
  refine Finset.sum_congr rfl fun day _ => ?_
  simp only [summarize, ofDay, withStatus, List.filter_filter, Bool.and_comm]

end AnalyticsService

open AnalyticsService

/-! ## The summary of a day -/

section Summary

variable {τ π : Type} (env : Env) (container : AppContainer τ π) (w : World τ π)

/-- The surroundings of a repository call after the clock is read at this time. -/
def clockRead (now : Datetime) : Ambient := (w.ambient.now (env.atClock now)).2

/-- What `list_transactions_for_date` answers to today's summary at this time. -/
def listedToday (now : Datetime) : Except Exn (List PendingTransaction) :=
  (container.transactionRepository.answer (env.atClock now) (.listTransactionsForDate now.date)
    (clockRead env w now, w.transactions)).1

/-- What `get_today_summary` returns at this time. -/
def todaySummary (now : Datetime) : Except Exn DailyAnalyticsSummary :=
  (Prog.run (handle (env.atClock now) container) AnalyticsService.getTodaySummary w).1

/-- The summary of today is a function of what the repository lists and of one reading of the clock. -/
theorem todaySummary_eq (now : Datetime) :
    todaySummary env container w now =
      (listedToday env container w now).map (summarize now.date) := by
  have hnow : (env.atClock now).clock w.ambient.clockReads = now := rfl
  have hlisted : listedToday env container w now = (handle (env.atClock now) container
      (.transactions (.listTransactionsForDate (Datetime.date now)))
      (w.readClock (env.atClock now))).1 := rfl
  rw [hlisted, todaySummary]
  simp only [AnalyticsService.getTodaySummary, Prog.run_bind, run_ask, handle_now, hnow]
  rcases handle (env.atClock now) container
    (.transactions (.listTransactionsForDate (Datetime.date now)))
    (w.readClock (env.atClock now)) with ⟨_ | _, _⟩
  · rfl
  · rfl

/-- The transaction is among those that the summary of this day is made of. -/
def CountedOn (t : PendingTransaction) (day : Date) : Prop :=
  ∃ now listed, Datetime.date now = day ∧ listedToday env container w now = .ok listed ∧ t ∈ listed

variable {env container w} (listing : ListedRows container.transactionRepository)
  (available : ∀ now, listing.Available (env.atClock now) (clockRead env w now))

include available

/-- The summary of a day is the one of its transactions. -/
theorem todaySummary_ofDay (now : Datetime) :
    todaySummary env container w now =
      .ok (summarize now.date (ofDay (listing.rows w.transactions).values now.date)) := by
  obtain ⟨listed, output, perm, -⟩ := listing.ofDate _ _ w.transactions now.date (available now)
  have hlisted : listedToday env container w now = .ok listed := output
  rw [todaySummary_eq, hlisted]
  exact congrArg Except.ok (summarize_perm _ perm)

/-- A transaction is counted on the day it was created. -/
theorem countedOn_iff {t : PendingTransaction} (stored : t ∈ (listing.rows w.transactions).values)
    (day : Date) : CountedOn env container w t day ↔ day = t.createdAt.date := by
  constructor
  · rintro ⟨now, listed, rfl, hlisted, ht⟩
    obtain ⟨listed', output, perm, -⟩ := listing.ofDate _ _ w.transactions now.date (available now)
    cases hlisted.symm.trans output
    have hday := (List.mem_filter.mp (perm.mem_iff.mp ht)).2
    exact (of_decide_eq_true hday).symm
  · rintro rfl
    obtain ⟨listed, output, perm, -⟩ :=
      listing.ofDate _ _ w.transactions t.createdAt.date (available t.createdAt)
    refine ⟨t.createdAt, listed, rfl, output, perm.mem_iff.mpr ?_⟩
    exact List.mem_filter.mpr ⟨stored, decide_eq_true rfl⟩

end Summary

/-! ## The statuses a summary counts -/

/-- A status with a count of its own. -/
def Counted (status : TransactionStatus) : Prop :=
  status = .pending ∨ status = .completed ∨ status = .failed

/-- Every stored status is counted. -/
def AllCounted (rows : Transactions) : Prop := ∀ t ∈ rows.values, Counted t.status

/-- The three counts of a summary make up its total. -/
def DailyAnalyticsSummary.Complete (summary : DailyAnalyticsSummary) : Prop :=
  summary.totalTransactions =
    summary.completedTransactions + summary.failedTransactions + summary.pendingTransactions

/-- Where every status is counted, the counts make up the total. -/
theorem counts_total {rows : List PendingTransaction} (counted : ∀ t ∈ rows, Counted t.status)
    (day : Date) :
    (summarize day rows).Complete := by
  show rows.length = _
  induction rows with
  | nil => rfl
  | cons t rows ih =>
    have hrest := ih fun u hu => counted u (List.mem_cons_of_mem _ hu)
    simp only [summarize, withStatus] at hrest ⊢
    rcases counted t List.mem_cons_self with h | h | h <;> simp [h] <;> omega

/-- A repository call that updates to no other status. -/
def TransactionRepositoryProtocol.Settles : TransactionRepositoryProtocol → Prop
  | .updateTransactionStatus args => ∃ status, Counted status ∧ args.status = status.value
  | _ => True

/-- A message that updates to no other status. -/
def Msg.Settles : Msg → Prop
  | .transactions m => m.Settles
  | _ => True

/-- A repository whose rows take their status from its calls. -/
structure CountedRows {τ : Type} (rows : τ → Transactions) (repository : TransactionRepository τ) :
    Prop where
  keeps : ∀ env m a d, m.Settles → AllCounted (rows d) →
    AllCounted (rows (repository.answer env m (a, d)).2.2)

/-- A record that the summary counts may be stored over any other. -/
theorem AllCounted.put {rows : Transactions} (h : AllCounted rows) {t : PendingTransaction}
    (ht : Counted t.status) : AllCounted (rows.put t) := by
  intro u hu
  rcases Keyed.mem_values_put.mp hu with rfl | ⟨hu, -⟩
  · exact ht
  · exact h u hu

/-- A transition to the text of a counted status is one to a counted status. -/
theorem counted_of_validateTransition {s t : TransactionStatus} {text : String}
    (settles : ∃ status, Counted status ∧ text = status.value)
    (valid : validateTransition s text = .ok t) : Counted t := by
  obtain ⟨status, hcounted, htext⟩ := settles
  obtain ⟨-, -, hvalue⟩ := validateTransition_ok_iff.mp valid
  have hsame : some status = some t := by
    rw [← TransactionStatus.ofValue?_value status, ← TransactionStatus.ofValue?_value t, ← htext, hvalue]
  cases hsame
  exact hcounted

/-- In memory a payment starts pending and moves along the state machine, whose statuses are all
counted. -/
theorem InMemoryTransactionRepository.countedRows :
    CountedRows id InMemoryTransactionRepository where
  keeps env m a d settles counted := by
    cases m with
    | savePendingTransaction args => exact counted.put (Or.inl rfl)
    | updateTransactionStatus args =>
      show AllCounted (InMemoryTransactionRepository.answer env _ (a, d)).2.2
      rcases memory_update env (a, d) args with
        ⟨-, hr⟩ | ⟨t, e, -, -, hr⟩ | ⟨t, status, -, valid, hr⟩
      · rw [hr]
        exact counted
      · rw [hr]
        exact counted
      · rw [hr]
        exact counted.put (counted_of_validateTransition settles valid)
    | _ => exact counted

/-! ### In the database -/

/-- A request that writes no other status. -/
def DatabaseCall.Settles : DatabaseCall → Prop
  | .commitInsert row => Counted row.status
  | .commitUpdate _ assigned => Counted assigned.status
  | _ => True

namespace TransactionTable

/-- A statement that writes no other status keeps the rows counted, also where it fails and is rolled
back. -/
theorem execute_counted (env : Env) {c : DatabaseCall} (settles : c.Settles) {t : TransactionTable}
    (counted : AllCounted t.rows) (a : Ambient) : AllCounted (t.execute c a env).2.2.rows := by
  cases c with
  | commitInsert row =>
    simp only [execute]
    split
    next hinsert =>
      unfold insert at hinsert
      split_ifs at hinsert
      cases hinsert
      exact counted.put settles
    next => exact counted
  | commitUpdate loaded assigned =>
    simp only [execute]
    split
    next hupdate =>
      unfold update at hupdate
      split at hupdate
      next => cases hupdate
      next current hget =>
        split at hupdate
        next =>
          cases hupdate
          -- an unchanged status is the one of the row
          refine counted.put ?_
          show Counted (if assigned.status = loaded.status then current.status else assigned.status)
          split
          · exact counted current (Keyed.mem_of_get hget)
          · exact settles
        next => cases hupdate
    next => exact counted
  | selectRecent limit =>
    simp only [execute]
    split <;> exact counted
  | refresh transactionId =>
    simp only [execute]
    split <;> exact counted
  | _ => exact counted

/-- A call of the database keeps the rows counted where its statements do, whether it is answered or
fails. -/
theorem answer_counted (env : Env) {c : DatabaseCall} (settles : c.Settles)
    (s : Ambient × TransactionTable) (counted : AllCounted s.2.rows) :
    AllCounted (answer env c s).2.2.rows := by
  simp only [answer]
  split_ifs
  · exact counted
  · exact execute_counted env settles counted _
  · exact execute_counted env settles counted _

end TransactionTable

/-- The statements of the repository write the statuses of the state machine. -/
theorem PostgresTransactionRepository.sends_settles {m : TransactionRepositoryProtocol}
    (settles : m.Settles) : (method m).Sends DatabaseCall.Settles := by
  cases m with
  | savePendingTransaction args =>
    refine .bind ((sends_query _).mpr trivial) fun now => ?_
    refine .bind ((sends_query _).mpr trivial) fun transactionId => ?_
    refine .bind (.translate _ ((sends_query _).mpr (Or.inl rfl))) fun _ => ?_
    exact (sends_query _).mpr trivial
  | updateTransactionStatus args =>
    refine .translate _ (.bind ((sends_query _).mpr trivial) fun found => ?_)
    cases found with
    | none => trivial
    | some model =>
      dsimp only
      split
      next => trivial
      next status valid =>
        refine .bind ((sends_query _).mpr trivial) fun now => ?_
        refine .bind ((sends_query _).mpr (counted_of_validateTransition settles valid)) fun _ => ?_
        exact .map ((sends_query _).mpr trivial) _
  | _ => exact .translate _ ((sends_query _).mpr trivial)

/-- The rows of the table stay counted through every method of the repository, whether it commits or
rolls back. -/
theorem PostgresTransactionRepository.countedRows :
    CountedRows TransactionTable.rows PostgresTransactionRepository where
  keeps env _ a t settles counted :=
    Prog.run_kept (I := fun s : Ambient × TransactionTable => AllCounted s.2.rows)
      (fun _ hc s => TransactionTable.answer_counted env hc s) (sends_settles settles)
      (s := (a, t)) counted

/-! ## Runs -/

namespace Msg

theorem OfApprovals.settles {m : Msg} (h : m.OfApprovals) : m.Settles := by
  cases m with
  | transactions => exact h.elim
  | _ => trivial

theorem OfExecution.settles {m : Msg} (h : m.OfExecution) : m.Settles := by
  cases m with
  | transactions m => cases m <;> first | exact h.elim | trivial
  | _ => trivial

theorem OfReading.settles {m : Msg} (h : m.OfReading) : m.Settles := by
  cases m with
  | transactions m => cases m <;> first | exact h.elim | trivial
  | _ => trivial

theorem OfCallback.settles {m : Msg} (h : m.OfCallback) : m.Settles := by
  cases m with
  | transactions m =>
    cases m with
    | updateTransactionStatus args =>
      obtain ⟨resultCode, hstatus⟩ := h
      refine ⟨_, ?_, hstatus⟩
      unfold StkCallbackHandler.targetStatus
      split
      · exact Or.inr (Or.inl rfl)
      · exact Or.inr (Or.inr rfl)
    | _ => trivial
  | _ => trivial

end Msg

section Run

variable {τ π : Type} {env : Env} {container : AppContainer τ π} {rows : τ → Transactions}

/-- Every operation but a direct update of a status. -/
def Op.Indirect : Op → Prop
  | .updateTransactionStatus _ => False
  | _ => True

/-- No service and no route names a status of its own, so every operation but a direct update keeps to
the state machine. -/
theorem settles_program {op : Op} (indirect : op.Indirect) :
    (program container env.toRuntime op).Sends Msg.Settles := by
  cases opKind container env.toRuntime op with
  | initiates args =>
    refine .map ?_ _
    have hprogram := initiation_program env container args
    generalize container.paymentService.initiateStkPush env.toRuntime args = p at hprogram
    cases hprogram with
    | pays request requested positive within =>
      exact (PaymentService.sends_executeStkPush _ _).mono fun _ => Msg.OfExecution.settles
    | files decision request =>
      exact sends_requireApproval (fun _ => Msg.OfApprovals.settles) (fun _ => trivial) _ _ _ _
    | refuses response => trivial
  | executes approvalId operatorId =>
    refine .map ?_ _
    rw [executeApprovedPayment_eq]
    refine .bind ((sends_reviewForExecution approvalId operatorId).mono
      fun _ => Msg.OfApprovals.settles) fun reviewed => ?_
    cases reviewed with
    | inl response => trivial
    | inr reviewed =>
      exact .map ((PaymentService.sends_executeApprovedStkPush _).mono
        fun _ => Msg.OfExecution.settles) _
  | saves args => exact .map ((sends_ask _).mpr trivial) _
  | updates args => exact indirect.elim
  | handles payload =>
    exact .map ((StkCallbackHandler.sends_process _ payload).mono
      fun _ h => h.ofCallback.settles) _
  | posts request =>
    exact .map ((container.callbackRoute.sends_post _ request).mono fun _ => Msg.OfCallback.settles) _
  | reviews sends => exact sends.mono fun _ => Msg.OfApprovals.settles
  | reads sends => exact sends.mono fun _ => Msg.OfReading.settles

/-- What one message keeps. -/
theorem handle_counted (kept : CountedRows rows container.transactionRepository) {m : Msg}
    (settles : m.Settles) (w : World τ π) (counted : AllCounted (rows w.transactions)) :
    AllCounted (rows (handle env container m w).2.transactions) := by
  cases m with
  | transactions m => exact kept.keeps env m w.ambient w.transactions settles counted
  | provider m => cases m <;> exact counted
  | _ => exact counted

/-- What one operation keeps. -/
theorem step_counted (kept : CountedRows rows container.transactionRepository) {op : Op}
    (indirect : op.Indirect) (w : World τ π) (counted : AllCounted (rows w.transactions)) :
    AllCounted (rows (step env container op w).2.transactions) :=
  Prog.run_kept (I := fun s : World τ π => AllCounted (rows s.transactions))
    (fun _ hm s => handle_counted kept hm s) (settles_program indirect) counted

/-- What a run keeps. -/
theorem run_counted (kept : CountedRows rows container.transactionRepository) {w : World τ π}
    (counted : AllCounted (rows w.transactions)) {ops : List Op} (indirect : ∀ op ∈ ops, op.Indirect) :
    AllCounted (rows (final (step env container) w ops).transactions) := by
  refine invariant_of (C := fun st : AppStep τ π => st.input.Indirect)
    (I := fun _ (w : World τ π) => AllCounted (rows w.transactions)) counted
    (fun _ w _ hop hw => step_counted kept hop w hw) ops fun st hst => indirect st.input ?_
  rw [← map_input_trace (step env container) w ops]
  exact List.mem_map_of_mem hst

end Run

/-! ## All days -/

/-- The summaries of all days partition these transactions. -/
structure Partitioned {τ π : Type} (env : Env) (container : AppContainer τ π) (w : World τ π)
    (stored : List PendingTransaction) (daily : Date → DailyAnalyticsSummary) : Prop where
  summaries : ∀ now, todaySummary env container w now = .ok (daily now.date)
  once : ∀ t ∈ stored, ∃! day, CountedOn env container w t day
  total : ∑ day ∈ allDates, (daily day).totalTransactions = stored.length
  revenue : ∑ day ∈ allDates, (daily day).totalRevenue =
    ((stored.filter fun t => t.status = .completed).map PendingTransaction.amount).sum

/-- **Daily summaries partition the payments**, and where operations of the application stored all of
them, the counts of every day make up its total. -/
theorem daily_analytics_partition {τ π : Type} (env : Env) (container : AppContainer τ π)
    (listing : ListedRows container.transactionRepository)
    (kept : CountedRows listing.rows container.transactionRepository) (w : World τ π)
    (available : ∀ now, listing.Available (env.atClock now) (clockRead env w now)) :
    ∃ daily, Partitioned env container w (listing.rows w.transactions).values daily ∧
      ∀ (transactions : τ) (provider : π) (ops : List Op), listing.rows transactions = Keyed.empty →
        (∀ op ∈ ops, op.Indirect) → w = final (step env container) (start transactions provider) ops →
        ∀ day, (daily day).Complete := by
  refine ⟨fun day => summarize day (ofDay (listing.rows w.transactions).values day), ?_, ?_⟩
  · refine ⟨todaySummary_ofDay listing available, fun t ht => ?_, sum_total _, sum_revenue _⟩
    refine ⟨t.createdAt.date, (countedOn_iff listing available ht _).mpr rfl, fun day hday => ?_⟩
    exact (countedOn_iff listing available ht day).mp hday
  · rintro transactions provider ops empty indirect rfl day
    have hcounted : AllCounted (listing.rows (final (step env container)
        (start transactions provider) ops).transactions) := by
      refine run_counted kept ?_ indirect
      show AllCounted (listing.rows transactions)
      rw [empty]
      exact fun t ht => absurd ht List.not_mem_nil
    exact counts_total (fun t ht => hcounted t (List.mem_of_mem_filter ht)) day

/-- A payment of ten shillings, in an empty database. -/
def onePayment : World TransactionTable Unit :=
  final (step .still (.postgres {} .development MockDarajaPaymentProvider))
    (start TransactionTable.empty ())
    [.initiateStkPush {
      phoneNumber := some "254712345678"
      amount := some 10
      accountReference := "INV-1"
      description := "Invoice 1" }]

theorem daily_analytics_partition_onePayment :
    onePayment.transactions.rows.values.length = 1 ∧
      ∃ daily, Partitioned .still (.postgres {} .development MockDarajaPaymentProvider) onePayment
        onePayment.transactions.rows.values daily ∧ ∀ day, (daily day).Complete := by
  refine ⟨by decide +kernel, ?_⟩
  obtain ⟨daily, partitioned, complete⟩ := daily_analytics_partition .still
    (.postgres {} .development MockDarajaPaymentProvider) PostgresTransactionRepository.listedRows
    PostgresTransactionRepository.countedRows onePayment fun _ => rfl
  refine ⟨daily, partitioned, complete TransactionTable.empty () _ rfl ?_ rfl⟩
  intro op hop
  cases List.mem_singleton.mp hop
  trivial

end MpesaMcp
