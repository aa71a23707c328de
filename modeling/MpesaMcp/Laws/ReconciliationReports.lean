import MpesaMcp.Laws.StatusQueries

/-!
# What a reconciliation reports of its status queries

A pass queries the provider about one transaction after the other (`queries`) and reports on each what
it was answered. Where the client answers `failed` for a query that obtained no answer, the pass takes
that for the provider's verdict on the payment; `reconciliation_reports_unknown_iff` says that it
reports such a transaction rightly in all other cases.
-/

set_option autoImplicit false

namespace MpesaMcp

open Library Python RealDarajaClient

/-! ## One pass -/

namespace ReconciliationService

variable (self : ReconciliationService)

/-- The threshold of the stale-pending test is no date; the test raises for this transaction. -/
def Overflows (now : Datetime) (t : PendingTransaction) : Prop :=
  t.status = .pending ∧ Datetime.addMinutes now (-self.stalePendingMinutes) = none

instance (now : Datetime) (t : PendingTransaction) : Decidable (self.Overflows now t) :=
  inferInstanceAs (Decidable (_ ∧ _))

/-- What the stale-pending test finds, where it does not raise. -/
def staleFindings (now : Datetime) (t : PendingTransaction) : List ReconciliationFinding :=
  match Datetime.addMinutes now (-self.stalePendingMinutes) with
  | none => []
  | some threshold =>
    if t.status ≠ .pending ∨ threshold < t.createdAt then []
    else [finding .stalePendingTransaction t none
      "Local pending transaction is older than the configured threshold."]

/-- What the comparison with the provider's answer finds. -/
def statusFindings (t : PendingTransaction) :
    Except Exn PaymentStatusResponse → List ReconciliationFinding
  | .error _ =>
    [finding .providerStatusUnknown t none "Provider status could not be resolved to a final state."]
  | .ok response =>
    if response.status ≠ "completed" ∧ response.status ≠ "failed" then
      [finding .providerStatusUnknown t (some response.status)
        "Provider status could not be resolved to a final state."]
    else mismatch t response.status

theorem stalePendingFindings_eq (now : Datetime) (t : PendingTransaction) :
    (self.Overflows now t ∧ ∃ e, self.stalePendingFindings t now = .raise e) ∨
    (¬ self.Overflows now t ∧
      self.stalePendingFindings t now = pure (self.staleFindings now t)) := by
  unfold stalePendingFindings staleFindings Overflows
  by_cases hpending : t.status = .pending
  · cases hadd : Datetime.addMinutes now (-self.stalePendingMinutes) with
    | none =>
      refine Or.inl ⟨⟨hpending, rfl⟩, .overflowError "date value out of range", ?_⟩
      rw [if_neg fun h => h hpending]
    | some threshold =>
      refine Or.inr ⟨fun h => Option.some_ne_none _ h.2, ?_⟩
      by_cases hlate : threshold < t.createdAt
      · simp only [hpending, hlate, ne_eq, not_true_eq_false, if_false, if_true, or_true]
      · simp only [hpending, hlate, ne_eq, not_true_eq_false, if_false, or_false]
  · refine Or.inr ⟨fun h => hpending h.1, ?_⟩
    rw [if_pos hpending]
    cases Datetime.addMinutes now (-self.stalePendingMinutes) with
    | none => rfl
    | some threshold => simp only [hpending, ne_eq, not_false_eq_true, true_or, if_true]

section Pass

variable {τ π : Type} (env : Env) (container : AppContainer τ π)

/-- The world after the status query of a transaction. -/
def queried (t : PendingTransaction) (w : World τ π) : World τ π :=
  (handle env container (.provider (.checkTransactionStatus (providerReference t))) w).2

/-- The provider's answer to the status query of a transaction. -/
def statusAnswer (t : PendingTransaction) (w : World τ π) : Except Exn PaymentStatusResponse :=
  (handle env container (.provider (.checkTransactionStatus (providerReference t))) w).1

/-- The queries of the loop of a pass, each with the world it is made in. -/
def queries (now : Datetime) : List PendingTransaction → World τ π →
    List (PendingTransaction × World τ π)
  | [], _ => []
  | t :: rest, w =>
    if reconcilable t.status then
      if self.Overflows now t then []
      else (t, w) :: queries now rest (queried env container t w)
    else queries now rest w

theorem run_providerMismatchFindings (t : PendingTransaction) (w : World τ π) :
    Prog.run (handle env container) (providerMismatchFindings t) w =
      (.ok (statusFindings t (statusAnswer env container t w)), queried env container t w) := by
  unfold statusAnswer queried
  simp only [providerMismatchFindings, providerStatus, Prog.run_bind, Prog.run_attempt, run_ask]
  cases (handle env container (.provider (.checkTransactionStatus (providerReference t))) w).1 with
  | error e => rfl
  | ok response =>
    dsimp only [statusFindings, Prog.run_pure]
    split <;> rfl

/-- The queries are about the reconcilable transactions of the list, in its order. -/
theorem queries_sublist (now : Datetime) (rows : List PendingTransaction) (w : World τ π) :
    ((self.queries env container now rows w).map Prod.fst).Sublist rows ∧
      ∀ q ∈ self.queries env container now rows w, reconcilable q.1.status = true := by
  induction rows generalizing w with
  | nil => exact ⟨List.Sublist.slnil, fun q hq => absurd hq List.not_mem_nil⟩
  | cons t rest ih =>
    unfold queries
    split
    next hrec =>
      split
      next => exact ⟨List.nil_sublist _, fun q hq => absurd hq List.not_mem_nil⟩
      next =>
        obtain ⟨hsublist, hrest⟩ := ih (queried env container t w)
        refine ⟨hsublist.cons_cons t, fun q hq => ?_⟩
        rcases List.mem_cons.mp hq with rfl | hq
        · exact hrec
        · exact hrest q hq
    next =>
      obtain ⟨hsublist, hrest⟩ := ih w
      exact ⟨hsublist.cons t, hrest⟩

/-- What the loop of a pass returns: it raises at the first transaction whose threshold is no date,
and otherwise collects the findings of its queries. -/
theorem run_reconcileEach (now : Datetime) (rows : List PendingTransaction) (w : World τ π) :
    let output := (Prog.run (handle env container) (self.reconcileEach now rows) w).1
    ((∃ t ∈ rows, self.Overflows now t) ∧ ∃ e, output = .error e) ∨
    ((¬ ∃ t ∈ rows, self.Overflows now t) ∧ ∃ checked, output = .ok (checked,
      (self.queries env container now rows w).flatMap fun q =>
        self.staleFindings now q.1 ++ statusFindings q.1 (statusAnswer env container q.1 q.2))) := by
  induction rows generalizing w with
  | nil => exact Or.inr ⟨by simp, 0, rfl⟩
  | cons t rest ih =>
    intro output
    by_cases hrec : reconcilable t.status = true
    case neg =>
      have hcut : (∃ u ∈ t :: rest, self.Overflows now u) ↔ ∃ u ∈ rest, self.Overflows now u := by
        refine ⟨fun ⟨u, hu, hover⟩ => ?_, fun ⟨u, hu, hover⟩ => ⟨u, List.mem_cons_of_mem _ hu, hover⟩⟩
        rcases List.mem_cons.mp hu with rfl | hu
        · exact absurd (by rw [hover.1]; rfl) hrec
        · exact ⟨u, hu, hover⟩
      have houtput : output = (Prog.run (handle env container) (self.reconcileEach now rest) w).1 := by
        show (Prog.run (handle env container) (self.reconcileEach now (t :: rest)) w).1 = _
        rw [reconcileEach, if_neg hrec]
      rw [hcut, houtput, queries, if_neg hrec]
      exact ih w
    case pos =>
      have houtput : output =
          (Prog.run (handle env container) (self.reconcileEach now (t :: rest)) w).1 := rfl
      rw [reconcileEach, if_pos hrec] at houtput
      rw [houtput, queries, if_pos hrec]
      rcases self.stalePendingFindings_eq now t with ⟨hover, e, hstale⟩ | ⟨hover, hstale⟩
      · refine Or.inl ⟨⟨t, List.mem_cons_self, hover⟩, e, ?_⟩
        simp only [hstale, Prog.run_bind, Prog.run_raise]
      · rw [if_neg hover]
        simp only [hstale, Prog.run_bind, Prog.run_pure, run_providerMismatchFindings]
        rcases ih (queried env container t w) with ⟨⟨u, hu, hcut⟩, e, he⟩ | ⟨hcut, checked, he⟩
        · refine Or.inl ⟨⟨u, List.mem_cons_of_mem _ hu, hcut⟩, e, ?_⟩
          cases hrun : Prog.run (handle env container) (self.reconcileEach now rest)
              (queried env container t w) with
          | mk r w' =>
          rw [hrun] at he
          cases he
          rfl
        · refine Or.inr ⟨fun ⟨u, hu, hcut'⟩ => ?_, checked + 1, ?_⟩
          · rcases List.mem_cons.mp hu with rfl | hu
            · exact hover hcut'
            · exact hcut ⟨u, hu, hcut'⟩
          · cases hrun : Prog.run (handle env container) (self.reconcileEach now rest)
                (queried env container t w) with
            | mk r w' =>
            rw [hrun] at he
            cases he
            simp only [List.flatMap_cons]

end Pass

end ReconciliationService

open ReconciliationService

/-! ## The report of a pass -/

/-- A repository that lists the rows it stores. -/
structure RowListing {τ : Type} (repository : TransactionRepository τ) where
  rows : τ → Transactions
  list : ∀ env a d, (repository.answer env .listTransactions (a, d)).1 = .ok (rows d).values ∨
    ∃ e, (repository.answer env .listTransactions (a, d)).1 = .error e

def InMemoryTransactionRepository.rowListing : RowListing InMemoryTransactionRepository where
  rows := id
  list _ _ _ := Or.inl rfl

def PostgresTransactionRepository.rowListing : RowListing PostgresTransactionRepository where
  rows := TransactionTable.rows
  list env a t := by
    have hlist : PostgresTransactionRepository.answer env .listTransactions (a, t) =
        Prog.run (TransactionTable.answer env) PostgresTransactionRepository.listTransactions
          (a, t) := rfl
    rw [hlist, PostgresTransactionRepository.listTransactions, Prog.run_translate, run_query,
      answer_statement env a t rfl]
    split
    · exact Or.inr ⟨_, rfl⟩
    · exact Or.inl rfl

/-- The pass reports the status of this transaction as unknown, and not as failed. -/
def ReportedUnknown (t : PendingTransaction) (output : Except Exn ReconciliationSummary) : Prop :=
  ∃ summary, output = .ok summary ∧
    (∃ f ∈ summary.findings, f.transactionId = t.transactionId ∧
      f.findingType = .providerStatusUnknown) ∧
    ∀ f ∈ summary.findings, f.transactionId = t.transactionId →
      f.findingType ≠ .pendingLocalButProviderFailed ∧
      f.findingType ≠ .completedLocalButProviderFailed

section Report

variable {τ : Type} (env : Env) (settings : Settings) (verifier : CallbackSourceVerifier)
  {repository : TransactionRepository τ} (daraja : DarajaSettings) (server : DarajaServer)

/-- The rows that a pass goes through. -/
def listed {π : Type} (container : AppContainer τ π) (w : World τ π) : List PendingTransaction :=
  match (handle env container (.transactions .listTransactions) (w.readClock env)).1 with
  | .ok rows => rows
  | .error _ => []

/-- The queries of a pass, each with the world it is made in. -/
def passQueries {π : Type} (container : AppContainer τ π) (w : World τ π) :
    List (PendingTransaction × World τ π) :=
  container.reconciliationService.queries env container (env.clock w.ambient.clockReads)
    (listed env container w)
    (handle env container (.transactions .listTransactions) (w.readClock env)).2

/-- What a pass returns. -/
def passOutput {π : Type} (container : AppContainer τ π) (w : World τ π) :
    Except Exn ReconciliationSummary :=
  (Prog.run (handle env container) container.reconciliationService.runReconciliation w).1

/-- The rows of a pass are distinct transactions. -/
theorem RowListing.listed_nodup (listing : RowListing repository) {π : Type}
    (container : AppContainer τ π) (uses : container.transactionRepository = repository)
    (w : World τ π) :
    ((listed env container w).map PendingTransaction.transactionId).Nodup := by
  subst uses
  unfold listed
  split
  next rows hrows =>
    rcases listing.list env (w.ambient.now env).2 w.transactions with h | ⟨e, h⟩
    · cases hrows.symm.trans h
      exact (listing.rows w.transactions).nodup
    · cases hrows.symm.trans h
  next => exact List.nodup_nil

/-- A pass raises, before its first query or at a transaction whose threshold is no date, or reports
the findings of its queries. -/
theorem passOutput_cases {π : Type} (container : AppContainer τ π) (w : World τ π) :
    let now := env.clock w.ambient.clockReads
    let self := container.reconciliationService
    (passQueries env container w = [] ∧ ∃ e, passOutput env container w = .error e) ∨
    ((∃ t ∈ listed env container w, self.Overflows now t) ∧
      ∃ e, passOutput env container w = .error e) ∨
    ((¬ ∃ t ∈ listed env container w, self.Overflows now t) ∧
      ∃ checked, passOutput env container w = .ok (buildSummary checked
        ((passQueries env container w).flatMap fun q =>
          self.staleFindings now q.1 ++
            statusFindings q.1 (statusAnswer env container q.1 q.2)))) := by
  intro now self
  unfold passOutput passQueries listed
  simp only [runReconciliation, Prog.run_bind, run_ask, handle_now]
  cases handle env container (.transactions .listTransactions) (w.readClock env) with
  | mk answer w₁ =>
  cases answer with
  | error e => exact Or.inl ⟨rfl, e, rfl⟩
  | ok rows =>
    right
    dsimp only
    have hloop := self.run_reconcileEach env container now rows w₁
    cases hrun : Prog.run (handle env container) (self.reconcileEach now rows) w₁ with
    | mk output w₂ =>
    rw [hrun] at hloop
    rcases hloop with ⟨hcut, e, he⟩ | ⟨hcut, checked, he⟩
    · refine Or.inl ⟨hcut, e, ?_⟩
      cases he
      rfl
    · refine Or.inr ⟨hcut, checked, ?_⟩
      cases he
      rfl

/-- Where the query of a transaction obtained no answer, the pass finds its status unknown, or takes
it for failed. -/
theorem statusFindings_unanswered (repository : TransactionRepository τ) {t : PendingTransaction}
    {w : World τ DarajaState}
    (unanswered : ¬ Obtains env daraja server (providerReference t) (w.ambient, w.provider)) :
    let answer := statusAnswer env (.daraja settings verifier repository daraja server) t w
    (¬ Masked env daraja server (providerReference t) (w.ambient, w.provider) ∧
      statusFindings t answer = [finding .providerStatusUnknown t none
        "Provider status could not be resolved to a final state."]) ∨
    (Masked env daraja server (providerReference t) (w.ambient, w.provider) ∧
      statusFindings t answer = mismatch t "failed") := by
  intro answer
  have hanswer : answer = ((checkAnswer env daraja server (providerReference t)
      (w.ambient, w.provider)).mapError ClientExn.toExn).map
        (DarajaPaymentProvider.statusResponse (providerReference t)) := rfl
  rw [hanswer]
  rcases checkAnswer_unanswered env daraja server (providerReference t) (w.ambient, w.provider)
    unanswered with ⟨hmasked, e, he⟩ | ⟨hmasked, response, hresponse, hstatus⟩
  · rw [he]
    exact Or.inl ⟨hmasked, rfl⟩
  · rw [hresponse]
    refine Or.inr ⟨hmasked, ?_⟩
    show (if response.status ≠ "completed" ∧ response.status ≠ "failed" then _
      else mismatch t response.status) = _
    rw [hstatus]
    exact if_neg fun h => h.2 rfl

theorem staleFindings_type {self : ReconciliationService} {now : Datetime} {t : PendingTransaction}
    {f : ReconciliationFinding} (h : f ∈ self.staleFindings now t) :
    f.findingType = .stalePendingTransaction ∧ f.transactionId = t.transactionId := by
  unfold staleFindings at h
  split at h
  · exact absurd h List.not_mem_nil
  · split at h
    · exact absurd h List.not_mem_nil
    · rw [List.mem_singleton.mp h]
      exact ⟨rfl, rfl⟩

theorem statusFindings_id {t : PendingTransaction} {answer : Except Exn PaymentStatusResponse}
    {f : ReconciliationFinding} (h : f ∈ statusFindings t answer) :
    f.transactionId = t.transactionId := by
  have single : ∀ {type status reason}, f ∈ [finding type t status reason] →
      f.transactionId = t.transactionId := by
    intro type status reason h
    rw [List.mem_singleton.mp h]
    rfl
  cases answer with
  | error e => exact single h
  | ok response =>
    dsimp only [statusFindings, mismatch] at h
    split_ifs at h
    all_goals first | exact single h | exact absurd h List.not_mem_nil

/-- A queried transaction that is taken for failed is reported so, or not at all where it has failed
here too. -/
theorem mismatch_failed {t : PendingTransaction} (queried : reconcilable t.status = true) :
    (∃ f ∈ mismatch t "failed", f.findingType = .pendingLocalButProviderFailed ∨
      f.findingType = .completedLocalButProviderFailed) ∨ mismatch t "failed" = [] := by
  cases hlocal : t.status with
  | pending =>
    refine Or.inl ⟨finding .pendingLocalButProviderFailed t (some "failed")
      "Local transaction is pending but provider reports failed.", ?_, Or.inl rfl⟩
    simp [mismatch, hlocal]
  | completed =>
    refine Or.inl ⟨finding .completedLocalButProviderFailed t (some "failed")
      "Local transaction is completed but provider reports failed.", ?_, Or.inr rfl⟩
    simp [mismatch, hlocal]
  | failed => exact Or.inr (by simp [mismatch, hlocal])
  | timedOut => simp [hlocal, reconcilable] at queried
  | cancelled => simp [hlocal, reconcilable] at queried

/-- A finding about a queried transaction is one of its own query. -/
theorem finding_own {self : ReconciliationService} {now : Datetime}
    {queries : List (PendingTransaction × World τ DarajaState)}
    {answer : PendingTransaction → World τ DarajaState → Except Exn PaymentStatusResponse}
    (distinct : (queries.map fun q => q.1.transactionId).Nodup)
    {q : PendingTransaction × World τ DarajaState} (hq : q ∈ queries) {f : ReconciliationFinding}
    (hf : f ∈ queries.flatMap fun q =>
      self.staleFindings now q.1 ++ statusFindings q.1 (answer q.1 q.2))
    (hid : f.transactionId = q.1.transactionId) :
    f.findingType = .stalePendingTransaction ∨ f ∈ statusFindings q.1 (answer q.1 q.2) := by
  obtain ⟨q', hq', hf⟩ := List.mem_flatMap.mp hf
  rcases List.mem_append.mp hf with hf | hf
  · exact Or.inl (staleFindings_type hf).1
  · have hsame : q' = q := List.inj_on_of_nodup_map distinct hq' hq
      ((statusFindings_id hf).symm.trans hid)
    exact Or.inr (hsame ▸ hf)

/-- Where a pass reports the findings of its queries, a query without an answer is reported as unknown
exactly where it is not taken for a failed payment. -/
theorem reportedUnknown_iff {self : ReconciliationService} {now : Datetime}
    {queries : List (PendingTransaction × World τ DarajaState)} {checked : Nat}
    {output : Except Exn ReconciliationSummary}
    (distinct : (queries.map fun q => q.1.transactionId).Nodup)
    (answer : output = .ok (buildSummary checked (queries.flatMap fun q => self.staleFindings now q.1 ++
      statusFindings q.1 (statusAnswer env (.daraja settings verifier repository daraja server)
        q.1 q.2))))
    {q : PendingTransaction × World τ DarajaState} (hq : q ∈ queries)
    (queried : reconcilable q.1.status = true)
    (unanswered : ¬ Obtains env daraja server (providerReference q.1) (q.2.ambient, q.2.provider)) :
    ReportedUnknown q.1 output ↔
      ¬ Masked env daraja server (providerReference q.1) (q.2.ambient, q.2.provider) := by
  have hcases := statusFindings_unanswered env settings verifier daraja server repository unanswered
  constructor
  · rintro ⟨summary, hsummary, ⟨f, hf, hid, htype⟩, hnot⟩ hmasked
    cases answer.symm.trans hsummary
    rcases hcases with ⟨h, -⟩ | ⟨-, hfindings⟩
    · exact h hmasked
    · rcases mismatch_failed queried with ⟨g, hg, hfailed⟩ | hempty
      · rw [← hfindings] at hg
        have hrefuted := hnot g (List.mem_flatMap.mpr ⟨q, hq, List.mem_append_right _ hg⟩)
          (statusFindings_id hg)
        exact hfailed.elim hrefuted.1 hrefuted.2
      · rcases finding_own distinct hq hf hid with hstale | hmem
        · cases hstale.symm.trans htype
        · rw [hfindings, hempty] at hmem
          exact List.not_mem_nil hmem
  · intro hclear
    rcases hcases with ⟨-, hfindings⟩ | ⟨hmasked, -⟩
    · refine ⟨_, answer, ⟨finding .providerStatusUnknown q.1 none
        "Provider status could not be resolved to a final state.", ?_, rfl, rfl⟩,
        fun f hf hid => ?_⟩
      · refine List.mem_flatMap.mpr ⟨q, hq, List.mem_append_right _ ?_⟩
        rw [hfindings]
        exact List.mem_singleton_self _
      · rcases finding_own distinct hq hf hid with hstale | hmem
        · rw [hstale]
          exact ⟨nofun, nofun⟩
        · rw [hfindings, List.mem_singleton] at hmem
          rw [hmem]
          exact ⟨nofun, nofun⟩
    · exact absurd hmasked hclear

/-- **A failed status query is reported as unknown**, and not as a failed payment, exactly where no
failed query of the pass is turned into a response, and, if any query failed, no threshold is out of
range. -/
theorem reconciliation_reports_unknown_iff (listing : RowListing repository)
    (w : World τ DarajaState) :
    let container := AppContainer.daraja settings verifier repository daraja server
    let obtains := fun q : PendingTransaction × World τ DarajaState =>
      Obtains env daraja server (providerReference q.1) (q.2.ambient, q.2.provider)
    (∀ q ∈ passQueries env container w, ¬ obtains q →
      ReportedUnknown q.1 (passOutput env container w)) ↔
    (∀ q ∈ passQueries env container w,
      ¬ Masked env daraja server (providerReference q.1) (q.2.ambient, q.2.provider)) ∧
    ((∃ q ∈ passQueries env container w, ¬ obtains q) → ∀ t ∈ listed env container w,
      ¬ container.reconciliationService.Overflows (env.clock w.ambient.clockReads) t) := by
  intro container obtains
  obtain ⟨hsublist, hreconcilable⟩ := container.reconciliationService.queries_sublist env container
    (env.clock w.ambient.clockReads) (listed env container w)
    (handle env container (.transactions .listTransactions) (w.readClock env)).2
  have hids : ((passQueries env container w).map fun q => q.1.transactionId).Nodup := by
    have h := (listing.listed_nodup env container rfl w).sublist
      (hsublist.map PendingTransaction.transactionId)
    rwa [List.map_map] at h
  rcases passOutput_cases env container w with ⟨hnone, e, houtput⟩ | ⟨⟨t, ht, hover⟩, e, houtput⟩ |
    ⟨hcut, checked, houtput⟩
  · rw [hnone]
    exact ⟨fun _ => ⟨fun q hq => absurd hq List.not_mem_nil,
      fun ⟨q, hq, _⟩ => absurd hq List.not_mem_nil⟩, fun _ q hq => absurd hq List.not_mem_nil⟩
  · have hnever : ∀ u, ¬ ReportedUnknown u (passOutput env container w) := by
      rintro u ⟨summary, hsummary, -⟩
      cases houtput.symm.trans hsummary
    constructor
    · intro h
      have hall : ∀ q ∈ passQueries env container w, obtains q :=
        fun q hq => by_contra fun hun => hnever _ (h q hq hun)
      exact ⟨fun q hq hmasked => hmasked.unanswered (hall q hq).2,
        fun ⟨q, hq, hun⟩ => absurd (hall q hq) hun⟩
    · intro h q hq hun
      exact absurd hover (h.2 ⟨q, hq, hun⟩ t ht)
  · have hreported := fun q (hq : q ∈ passQueries env container w) (hun : ¬ obtains q) =>
      reportedUnknown_iff env settings verifier daraja server hids houtput hq (hreconcilable q hq) hun
    constructor
    · refine fun h => ⟨fun q hq hmasked => ?_, fun _ t ht hover => hcut ⟨t, ht, hover⟩⟩
      have hun : ¬ obtains q := fun h => hmasked.unanswered h.2
      exact (hreported q hq hun).mp (h q hq hun) hmasked
    · intro h q hq hun
      exact (hreported q hq hun).mpr (h.1 q hq)

end Report

/-! ## A paid transaction reported as failed -/

/-- Everything is configured; a request is made once. -/
def statusSettings : DarajaSettings where
  darajaMode := "sandbox"
  darajaMaxRetries := 0
  credential _ := some "configured"
  darajaInitiatorName := some "initiator"
  darajaSecurityCredential := some "credential"
  darajaTransactionStatusResultUrl := some "https://result"
  darajaTransactionStatusTimeoutUrl := some "https://timeout"

/-- Daraja does not answer. -/
def deafServer : DarajaServer where
  answer _ _ := .timeout "timed out"
  pushes _ := false

/-- A completed payment of 10 shillings. -/
def paidTenShillings : PendingTransaction where
  transactionId := "t1"
  phoneNumber := "254700000000"
  amount := 10
  accountReference := "order"
  description := "goods"
  checkoutRequestId := "ws_CO_1"
  merchantRequestId := "m1"
  createdAt := Datetime.epoch
  updatedAt := Datetime.epoch
  status := .completed

/-- A payment that was received is reported as failed at the provider where every request times out. -/
theorem timeout_reported_as_failed :
    let container := AppContainer.daraja {} .development InMemoryTransactionRepository statusSettings
      deafServer
    let w := start (Keyed.empty.put paidTenShillings) {}
    ∃ q ∈ passQueries .still container w, q.1 = paidTenShillings ∧
      ¬ Obtains .still statusSettings deafServer (providerReference q.1)
        (q.2.ambient, q.2.provider) ∧
      ¬ ReportedUnknown q.1 (passOutput .still container w) := by
  intro container w
  refine ⟨(paidTenShillings, (handle .still container (.transactions .listTransactions)
    (w.readClock .still)).2), List.mem_singleton_self _, rfl, ?_, ?_⟩
  · rintro ⟨-, payload, hpayload⟩
    cases hpayload
  · rintro ⟨summary, hsummary, -, hnot⟩
    cases hsummary
    exact (hnot _ (List.mem_singleton_self _) rfl).2 rfl

end MpesaMcp
