import MpesaMcp.Laws.Listings
import MpesaMcp.Laws.ReconciliationReports

/-!
# What a reconciliation finds

Over a provider that answers every status query by a function of the reference, a pass reports of each
checked transaction exactly the discrepancies that are there (`Discrepancy`), and of no other transaction
anything (`reconciliation_exact`). Its counters are read from a table under the texts of the finding
types; `tabulateSummary_eq` says that no finding misses its counter.
-/

set_option autoImplicit false

namespace MpesaMcp

open Library Python

namespace ReconciliationService

/-! ## The counting table -/

/-- The table with these counts. -/
def countTable (count : FindingType → Nat) : List (String × Nat) := [
  ("pending_local_but_provider_completed", count .pendingLocalButProviderCompleted),
  ("pending_local_but_provider_failed", count .pendingLocalButProviderFailed),
  ("completed_local_but_provider_failed", count .completedLocalButProviderFailed),
  ("failed_local_but_provider_completed", count .failedLocalButProviderCompleted),
  ("stale_pending_transaction", count .stalePendingTransaction),
  ("provider_status_unknown", count .providerStatusUnknown)]

/-- Every finding type has its counter. -/
theorem countKey_countTable (count : FindingType → Nat) (type : FindingType) :
    countKey (countTable count) type.value =
      some (countTable (Function.update count type (count type + 1))) := by
  cases type <;> simp [countTable, countKey, FindingType.value, Function.update]

theorem countFindings_countTable (count : FindingType → Nat) (findings : List ReconciliationFinding) :
    countFindings (countTable count) findings = some (countTable fun type =>
      count type + findings.countP fun f => decide (f.findingType = type)) := by
  induction findings generalizing count with
  | nil => rfl
  | cons f findings ih =>
    rw [countFindings, countKey_countTable, Option.bind_some, ih]
    refine congrArg (fun count => some (countTable count)) (funext fun type => ?_)
    rw [List.countP_cons]
    by_cases htype : f.findingType = type
    · subst htype
      rw [Function.update_self, if_pos (decide_eq_true rfl)]
      omega
    · rw [Function.update_of_ne (Ne.symm htype), if_neg (by simpa using htype)]
      omega

/-- The table raises no `KeyError`, and counts the findings of each type. -/
theorem tabulateSummary_eq (checked : Nat) (findings : List ReconciliationFinding) :
    tabulateSummary checked findings = some (buildSummary checked findings) := by
  have hcounts := countFindings_countTable (fun _ => 0) findings
  simp only [Nat.zero_add] at hcounts
  show (countFindings (countTable fun _ => 0) findings).bind _ = _
  rw [hcounts]
  rfl

/-! ## One pass -/

section Pass

variable {τ π : Type} {env : Env} {container : AppContainer τ π}
  {status : String → Except Exn PaymentStatusResponse} {self : ReconciliationService}

/-- The provider answers status queries by a function of the reference. -/
def AnswersBy (env : Env) (provider : PaymentProvider π)
    (status : String → Except Exn PaymentStatusResponse) : Prop :=
  ∀ reference s, (provider.answer env (.checkTransactionStatus reference) s).1 = status reference

theorem statusAnswer_eq (answers : AnswersBy env container.paymentProvider status)
    (t : PendingTransaction) (w : World τ π) :
    statusAnswer env container t w = status (providerReference t) :=
  answers (providerReference t) (w.ambient, w.provider)

/-- The findings about one checked transaction. -/
def findingsOf (self : ReconciliationService) (now : Datetime)
    (status : String → Except Exn PaymentStatusResponse) (t : PendingTransaction) :
    List ReconciliationFinding :=
  self.staleFindings now t ++ statusFindings t (status (providerReference t))

/-- The loop of a pass whose threshold is a date: it counts the transactions that it checks, and leaves
the store alone. -/
theorem run_reconcileEach_answered (answers : AnswersBy env container.paymentProvider status)
    {now threshold : Datetime}
    (representable : Datetime.addMinutes now (-self.stalePendingMinutes) = some threshold)
    (rows : List PendingTransaction) (w : World τ π) :
    ∃ w', Prog.run (handle env container) (self.reconcileEach now rows) w =
        (.ok (rows.countP fun t => reconcilable t.status,
          (rows.filter fun t => reconcilable t.status).flatMap (self.findingsOf now status)), w') ∧
      w'.transactions = w.transactions := by
  induction rows generalizing w with
  | nil => exact ⟨w, rfl, rfl⟩
  | cons t rest ih =>
    by_cases hrec : reconcilable t.status = true
    · obtain ⟨w', hrun, hsame⟩ := ih (queried env container t w)
      have hstale : self.stalePendingFindings t now = pure (self.staleFindings now t) := by
        rcases self.stalePendingFindings_eq now t with ⟨hover, -⟩ | ⟨-, hstale⟩
        · exact absurd (hover.2.symm.trans representable) nofun
        · exact hstale
      refine ⟨w', ?_, hsame⟩
      rw [reconcileEach, if_pos hrec, hstale,
        List.countP_cons_of_pos (p := fun t : PendingTransaction => reconcilable t.status) hrec,
        List.filter_cons_of_pos (p := fun t : PendingTransaction => reconcilable t.status) hrec,
        List.flatMap_cons]
      simp only [Prog.run_bind, Prog.run_pure, run_providerMismatchFindings, hrun,
        statusAnswer_eq answers, findingsOf]
    · obtain ⟨w', hrun, hsame⟩ := ih w
      rw [reconcileEach, if_neg hrec,
        List.countP_cons_of_neg (p := fun t : PendingTransaction => reconcilable t.status) hrec,
        List.filter_cons_of_neg (p := fun t : PendingTransaction => reconcilable t.status) hrec]
      exact ⟨w', hrun, hsame⟩

/-- A pass over an available repository: the findings are those of its transactions, in the order they
are listed, with one reading of the clock for all of them. -/
theorem run_runReconciliation (listing : ListedRows container.transactionRepository)
    (answers : AnswersBy env container.paymentProvider status) {threshold : Datetime} {w : World τ π}
    (available : listing.Available env (w.ambient.now env).2)
    (representable : Datetime.addMinutes (env.clock w.ambient.clockReads)
      (-container.reconciliationService.stalePendingMinutes) = some threshold) :
    ∃ (listed : List PendingTransaction) (w' : World τ π),
      listed.Perm (listing.rows w.transactions).values ∧
      w'.transactions = w.transactions ∧
      Prog.run (handle env container) container.reconciliationService.runReconciliation w =
        (.ok (buildSummary (listed.countP fun t => reconcilable t.status)
          ((listed.filter fun t => reconcilable t.status).flatMap
            (container.reconciliationService.findingsOf (env.clock w.ambient.clockReads) status))),
          w') := by
  obtain ⟨listed, houtput, hperm, hstore⟩ :=
    listing.all env (w.ambient.now env).2 w.transactions available
  obtain ⟨w', hrun, hsame⟩ := run_reconcileEach_answered answers representable listed
    (handle env container (.transactions .listTransactions) (w.readClock env)).2
  refine ⟨listed, w', hperm, hsame.trans hstore, ?_⟩
  have hlist : (handle env container (.transactions .listTransactions) (w.readClock env)).1 =
      .ok listed := houtput
  simp only [runReconciliation, Prog.run_bind, run_ask, handle_now]
  cases hhandle : handle env container (.transactions .listTransactions) (w.readClock env) with
  | mk answer w₁ =>
  rw [hhandle] at hlist hrun
  cases hlist
  dsimp only
  rw [hrun]
  rfl

end Pass

/-! ## The discrepancies -/

/-- A status of the provider that settles a payment. -/
def FinalStatus (status : String) : Prop := status = "completed" ∨ status = "failed"

/-- What there is to report of a transaction for the provider's answer: it is no final status, or another
one than the stored one, which the type of the finding names. -/
def StatusDiscrepancy (answer : Except Exn PaymentStatusResponse) (t : PendingTransaction) :
    FindingType → Prop
  | .providerStatusUnknown => ¬ ∃ response, answer = .ok response ∧ FinalStatus response.status
  | .stalePendingTransaction => False
  | type => ∃ response, answer = .ok response ∧ FinalStatus response.status ∧
      response.status ≠ t.status.value ∧
      type.value = t.status.value ++ "_local_but_provider_" ++ response.status

/-- What there is to report of a transaction: a discrepancy of its status, or that it is pending since
the threshold. -/
def Discrepancy (status : String → Except Exn PaymentStatusResponse) (threshold : Datetime)
    (t : PendingTransaction) (type : FindingType) : Prop :=
  StatusDiscrepancy (status (providerReference t)) t type ∨
    type = .stalePendingTransaction ∧ t.status = .pending ∧ t.createdAt ≤ threshold

theorem countP_finding (found : FindingType) (t : PendingTransaction) (provider : Option String)
    (reason : String) (type : FindingType) :
    [finding found t provider reason].countP (fun f => decide (f.findingType = type)) =
      if found = type then 1 else 0 := by
  rw [List.countP_singleton]
  show (if decide (found = type) = true then 1 else 0) = _
  simp only [decide_eq_true_eq]

theorem countP_staleFindings {self : ReconciliationService} {now threshold : Datetime}
    (representable : Datetime.addMinutes now (-self.stalePendingMinutes) = some threshold)
    (t : PendingTransaction) (type : FindingType) :
    (self.staleFindings now t).countP (fun f => decide (f.findingType = type)) =
      if type = .stalePendingTransaction ∧ t.status = .pending ∧ t.createdAt ≤ threshold then 1
      else 0 := by
  simp only [staleFindings, representable]
  by_cases hfresh : t.status ≠ .pending ∨ threshold < t.createdAt
  · have hnone : ¬ (type = .stalePendingTransaction ∧ t.status = .pending ∧ t.createdAt ≤ threshold) :=
      fun h => hfresh.elim (fun hne => hne h.2.1) fun hlt => not_le.mpr hlt h.2.2
    rw [if_pos hfresh, if_neg hnone]
    rfl
  · rw [not_or, not_not, not_lt] at hfresh
    rw [if_neg (by simp [hfresh])]
    by_cases htype : type = .stalePendingTransaction
    · subst htype
      rw [if_pos ⟨rfl, hfresh⟩]
      rfl
    · rw [if_neg fun h => htype h.1, countP_finding, if_neg (Ne.symm htype)]

/-- Of a final status that differs from the stored one, the finding is the one that they name. -/
theorem countP_mismatch {t : PendingTransaction} (checked : reconcilable t.status = true)
    {status : String} (final : FinalStatus status) (type : FindingType) :
    (mismatch t status).countP (fun f => decide (f.findingType = type)) =
      if status ≠ t.status.value ∧
        type.value = t.status.value ++ "_local_but_provider_" ++ status then 1 else 0 := by
  cases hlocal : t.status with
  | timedOut => simp [hlocal, reconcilable] at checked
  | cancelled => simp [hlocal, reconcilable] at checked
  | pending =>
    rcases final with rfl | rfl
    · have hfound : mismatch t "completed" = [finding .pendingLocalButProviderCompleted t
          (some "completed") "Local transaction is pending but provider reports completed."] := by
        simp [mismatch, hlocal]
      rw [hfound, countP_finding]
      cases type <;> decide
    · have hfound : mismatch t "failed" = [finding .pendingLocalButProviderFailed t
          (some "failed") "Local transaction is pending but provider reports failed."] := by
        simp [mismatch, hlocal]
      rw [hfound, countP_finding]
      cases type <;> decide
  | completed =>
    rcases final with rfl | rfl
    · have hnone : mismatch t "completed" = [] := by simp [mismatch, hlocal]
      rw [hnone, if_neg fun h => h.1 rfl]
      rfl
    · have hfound : mismatch t "failed" = [finding .completedLocalButProviderFailed t
          (some "failed") "Local transaction is completed but provider reports failed."] := by
        simp [mismatch, hlocal]
      rw [hfound, countP_finding]
      cases type <;> decide
  | failed =>
    rcases final with rfl | rfl
    · have hfound : mismatch t "completed" = [finding .failedLocalButProviderCompleted t
          (some "completed") "Local transaction is failed but provider reports completed."] := by
        simp [mismatch, hlocal]
      rw [hfound, countP_finding]
      cases type <;> decide
    · have hnone : mismatch t "failed" = [] := by simp [mismatch, hlocal]
      rw [hnone, if_neg fun h => h.1 rfl]
      rfl

/-- An answer that is no final status is one finding. -/
theorem statusFindings_unknown {t : PendingTransaction} {answer : Except Exn PaymentStatusResponse}
    (unknown : ¬ ∃ response, answer = .ok response ∧ FinalStatus response.status) :
    ∃ provider, statusFindings t answer = [finding .providerStatusUnknown t provider
      "Provider status could not be resolved to a final state."] := by
  cases answer with
  | error e => exact ⟨none, rfl⟩
  | ok response =>
    refine ⟨some response.status, if_pos ⟨fun h => ?_, fun h => ?_⟩⟩
    · exact unknown ⟨response, rfl, Or.inl h⟩
    · exact unknown ⟨response, rfl, Or.inr h⟩

/-- Of a final status, the discrepancy is the mismatch. -/
theorem statusDiscrepancy_final {t : PendingTransaction}
    {response : PaymentStatusResponse} (final : FinalStatus response.status) {type : FindingType} :
    StatusDiscrepancy (.ok response) t type ↔ response.status ≠ t.status.value ∧
      type.value = t.status.value ++ "_local_but_provider_" ++ response.status := by
  have hmismatch : (∃ r, (.ok response : Except Exn PaymentStatusResponse) = .ok r ∧ FinalStatus r.status ∧
      r.status ≠ t.status.value ∧
      type.value = t.status.value ++ "_local_but_provider_" ++ r.status) ↔
      response.status ≠ t.status.value ∧
        type.value = t.status.value ++ "_local_but_provider_" ++ response.status := by
    refine ⟨?_, fun h => ⟨response, rfl, final, h⟩⟩
    rintro ⟨r, hr, -, h⟩
    cases hr
    exact h
  have hnamed : ∀ type : FindingType, type = .stalePendingTransaction ∨ type = .providerStatusUnknown →
      type.value ≠ t.status.value ++ "_local_but_provider_" ++ response.status := by
    intro type htype
    rcases final with hstatus | hstatus <;> rw [hstatus] <;>
      rcases htype with rfl | rfl <;> cases t.status <;> decide
  cases type with
  | providerStatusUnknown =>
    exact iff_of_false (fun h => h ⟨response, rfl, final⟩) fun h => hnamed _ (Or.inr rfl) h.2
  | stalePendingTransaction => exact iff_of_false id fun h => hnamed _ (Or.inl rfl) h.2
  | pendingLocalButProviderCompleted => exact hmismatch
  | pendingLocalButProviderFailed => exact hmismatch
  | completedLocalButProviderFailed => exact hmismatch
  | failedLocalButProviderCompleted => exact hmismatch

theorem countP_statusFindings {t : PendingTransaction} (checked : reconcilable t.status = true)
    (answer : Except Exn PaymentStatusResponse) (type : FindingType) :
    (StatusDiscrepancy answer t type ∧
      (statusFindings t answer).countP (fun f => decide (f.findingType = type)) = 1) ∨
    (¬ StatusDiscrepancy answer t type ∧
      (statusFindings t answer).countP (fun f => decide (f.findingType = type)) = 0) := by
  by_cases hfinal : ∃ response, answer = .ok response ∧ FinalStatus response.status
  · obtain ⟨response, rfl, final⟩ := hfinal
    have hsettled : ¬ (response.status ≠ "completed" ∧ response.status ≠ "failed") :=
      fun h => final.elim h.1 h.2
    have hdiscrepancy : StatusDiscrepancy (.ok response) t type ↔
        response.status ≠ t.status.value ∧
          type.value = t.status.value ++ "_local_but_provider_" ++ response.status :=
      statusDiscrepancy_final final
    rw [statusFindings, if_neg hsettled, countP_mismatch checked final, hdiscrepancy]
    split
    next h => exact Or.inl ⟨h, rfl⟩
    next h => exact Or.inr ⟨h, rfl⟩
  · obtain ⟨provider, hfound⟩ := statusFindings_unknown (t := t) hfinal
    rw [hfound, countP_finding]
    by_cases htype : type = .providerStatusUnknown
    · subst htype
      exact Or.inl ⟨hfinal, rfl⟩
    · refine Or.inr ⟨fun h => ?_, if_neg (Ne.symm htype)⟩
      cases type with
      | providerStatusUnknown => exact htype rfl
      | stalePendingTransaction => exact h
      | pendingLocalButProviderCompleted => exact hfinal (h.imp fun _ h => ⟨h.1, h.2.1⟩)
      | pendingLocalButProviderFailed => exact hfinal (h.imp fun _ h => ⟨h.1, h.2.1⟩)
      | completedLocalButProviderFailed => exact hfinal (h.imp fun _ h => ⟨h.1, h.2.1⟩)
      | failedLocalButProviderCompleted => exact hfinal (h.imp fun _ h => ⟨h.1, h.2.1⟩)

/-- The findings about a transaction are its discrepancies, one each. -/
theorem countP_findingsOf {self : ReconciliationService} {now threshold : Datetime}
    (status : String → Except Exn PaymentStatusResponse)
    (representable : Datetime.addMinutes now (-self.stalePendingMinutes) = some threshold)
    {t : PendingTransaction} (checked : reconcilable t.status = true) (type : FindingType) :
    (Discrepancy status threshold t type ∧
      (self.findingsOf now status t).countP (fun f => decide (f.findingType = type)) = 1) ∨
    (¬ Discrepancy status threshold t type ∧
      (self.findingsOf now status t).countP (fun f => decide (f.findingType = type)) = 0) := by
  rw [findingsOf, List.countP_append, countP_staleFindings representable, Discrepancy]
  by_cases hstale : type = .stalePendingTransaction ∧ t.status = .pending ∧ t.createdAt ≤ threshold
  · rw [if_pos hstale]
    rcases countP_statusFindings checked (status (providerReference t)) type with ⟨h, -⟩ | ⟨-, hcount⟩
    · rw [hstale.1] at h
      exact absurd h id
    · exact Or.inl ⟨Or.inr hstale, by rw [hcount]⟩
  · rw [if_neg hstale, Nat.zero_add, or_iff_left hstale]
    exact countP_statusFindings checked (status (providerReference t)) type

/-! ## What a pass reports -/

/-- The counter of a finding type. -/
def counter (summary : ReconciliationSummary) : FindingType → Nat
  | .pendingLocalButProviderCompleted => summary.pendingLocalButProviderCompleted
  | .pendingLocalButProviderFailed => summary.pendingLocalButProviderFailed
  | .completedLocalButProviderFailed => summary.completedLocalButProviderFailed
  | .failedLocalButProviderCompleted => summary.failedLocalButProviderCompleted
  | .stalePendingTransaction => summary.stalePendingTransaction
  | .providerStatusUnknown => summary.providerStatusUnknown

/-- How many findings of a type a summary has about a transaction. -/
def reported (summary : ReconciliationSummary) (t : PendingTransaction) (type : FindingType) : Nat :=
  summary.findings.countP fun f =>
    decide (f.transactionId = t.transactionId ∧ f.findingType = type)

/-- A summary of these rows that reports their discrepancies and nothing else. -/
structure Exact (status : String → Except Exn PaymentStatusResponse) (threshold : Datetime)
    (rows : List PendingTransaction) (summary : ReconciliationSummary) : Prop where
  checked : summary.checkedTransactions = rows.countP fun t => reconcilable t.status
  once : ∀ t ∈ rows, reconcilable t.status = true → ∀ type,
    (Discrepancy status threshold t type → reported summary t type = 1) ∧
    (¬ Discrepancy status threshold t type → reported summary t type = 0)
  /-- Where the final status of the provider is another one, there is a type that names the two. -/
  named : ∀ t ∈ rows, reconcilable t.status = true → ∀ response,
    status (providerReference t) = .ok response → FinalStatus response.status →
      response.status ≠ t.status.value →
      ∃ type, type.value = t.status.value ++ "_local_but_provider_" ++ response.status ∧
        Discrepancy status threshold t type
  /-- Every finding is about a checked transaction. -/
  about : ∀ f ∈ summary.findings, ∃ t ∈ rows, reconcilable t.status = true ∧
    ∃ provider reason, f = finding f.findingType t provider reason
  counters : ∀ type, counter summary type =
    summary.findings.countP fun f => decide (f.findingType = type)
  total : summary.findingCount =
    summary.pendingLocalButProviderCompleted + summary.pendingLocalButProviderFailed +
      summary.completedLocalButProviderFailed + summary.failedLocalButProviderCompleted +
      summary.stalePendingTransaction + summary.providerStatusUnknown
  /-- The counters are those of the table, which has no `KeyError`. -/
  table : tabulateSummary summary.checkedTransactions summary.findings = some summary

/-- Every finding of a transaction carries its data. -/
theorem findingsOf_about {self : ReconciliationService} {now : Datetime}
    {status : String → Except Exn PaymentStatusResponse} {t : PendingTransaction}
    {f : ReconciliationFinding} (h : f ∈ self.findingsOf now status t) :
    ∃ provider reason, f = finding f.findingType t provider reason := by
  have single : ∀ {type provider reason}, f ∈ [finding type t provider reason] →
      ∃ provider reason, f = finding f.findingType t provider reason := by
    intro type provider reason h
    rw [List.mem_singleton.mp h]
    exact ⟨provider, reason, rfl⟩
  rcases List.mem_append.mp h with h | h
  · unfold staleFindings at h
    split at h
    · exact absurd h List.not_mem_nil
    · split at h
      · exact absurd h List.not_mem_nil
      · exact single h
  · cases hstatus : status (providerReference t) with
    | error e =>
      rw [hstatus] at h
      exact single h
    | ok response =>
      rw [hstatus] at h
      dsimp only [statusFindings, mismatch] at h
      split_ifs at h
      all_goals first | exact single h | exact absurd h List.not_mem_nil

/-- The findings about a transaction are its own, also among those of other transactions. -/
theorem countP_own (self : ReconciliationService) (now : Datetime)
    (status : String → Except Exn PaymentStatusResponse) {rows : List PendingTransaction}
    (distinct : (rows.map PendingTransaction.transactionId).Nodup) {t : PendingTransaction}
    (ht : t ∈ rows) (type : FindingType) :
    (rows.flatMap (self.findingsOf now status)).countP (fun f =>
      decide (f.transactionId = t.transactionId ∧ f.findingType = type)) =
    (self.findingsOf now status t).countP fun f => decide (f.findingType = type) := by
  have hown : ∀ u f, f ∈ self.findingsOf now status u → f.transactionId = u.transactionId := by
    intro u f hf
    obtain ⟨provider, reason, hf⟩ := findingsOf_about hf
    rw [hf]
    rfl
  have hself : (self.findingsOf now status t).countP (fun f =>
      decide (f.transactionId = t.transactionId ∧ f.findingType = type)) =
      (self.findingsOf now status t).countP fun f => decide (f.findingType = type) := by
    refine List.countP_congr fun f hf => ?_
    rw [decide_eq_true_eq, decide_eq_true_eq, and_iff_right (hown t f hf)]
  have hothers : ∀ others : List PendingTransaction,
      (∀ u ∈ others, u.transactionId ≠ t.transactionId) →
      (others.flatMap (self.findingsOf now status)).countP (fun f =>
        decide (f.transactionId = t.transactionId ∧ f.findingType = type)) = 0 := by
    intro others hothers
    refine List.countP_eq_zero.mpr fun f hf => ?_
    obtain ⟨u, hu, hf⟩ := List.mem_flatMap.mp hf
    rw [decide_eq_true_eq, hown u f hf]
    exact fun h => hothers u hu h.1
  obtain ⟨before, after, rfl⟩ := List.append_of_mem ht
  rw [List.map_append, List.map_cons, List.nodup_append, List.nodup_cons] at distinct
  obtain ⟨-, ⟨hafter, -⟩, hbefore⟩ := distinct
  rw [List.flatMap_append, List.flatMap_cons, List.countP_append, List.countP_append, hself,
    hothers before fun u hu => hbefore _ (List.mem_map_of_mem hu) _ List.mem_cons_self,
    hothers after fun u hu h => hafter (h ▸ List.mem_map_of_mem hu)]
  omega

/-- Every finding is counted once. -/
theorem length_eq_counts (findings : List ReconciliationFinding) :
    findings.length =
      buildSummary.count findings .pendingLocalButProviderCompleted +
      buildSummary.count findings .pendingLocalButProviderFailed +
      buildSummary.count findings .completedLocalButProviderFailed +
      buildSummary.count findings .failedLocalButProviderCompleted +
      buildSummary.count findings .stalePendingTransaction +
      buildSummary.count findings .providerStatusUnknown := by
  induction findings with
  | nil => rfl
  | cons f findings ih =>
    simp only [buildSummary.count, List.length_cons, List.countP_cons, decide_eq_true_eq] at ih ⊢
    cases f.findingType <;> simp <;> omega

theorem exists_mismatchType {local' : TransactionStatus} (checked : reconcilable local' = true)
    {status : String} (final : FinalStatus status) (differs : status ≠ local'.value) :
    ∃ type : FindingType, type.value = local'.value ++ "_local_but_provider_" ++ status ∧
      type ≠ .providerStatusUnknown ∧ type ≠ .stalePendingTransaction := by
  cases local' with
  | timedOut => cases checked
  | cancelled => cases checked
  | pending =>
    rcases final with rfl | rfl
    · exact ⟨.pendingLocalButProviderCompleted, by decide, nofun, nofun⟩
    · exact ⟨.pendingLocalButProviderFailed, by decide, nofun, nofun⟩
  | completed =>
    rcases final with rfl | rfl
    · exact absurd rfl differs
    · exact ⟨.completedLocalButProviderFailed, by decide, nofun, nofun⟩
  | failed =>
    rcases final with rfl | rfl
    · exact ⟨.failedLocalButProviderCompleted, by decide, nofun, nofun⟩
    · exact absurd rfl differs

/-- The summary of a pass over the rows in any order. -/
theorem exact_of_perm {self : ReconciliationService} {now threshold : Datetime}
    {status : String → Except Exn PaymentStatusResponse}
    (representable : Datetime.addMinutes now (-self.stalePendingMinutes) = some threshold)
    {rows listed : List PendingTransaction}
    (distinct : (rows.map PendingTransaction.transactionId).Nodup) (perm : listed.Perm rows) :
    Exact status threshold rows (buildSummary (listed.countP fun t => reconcilable t.status)
      ((listed.filter fun t => reconcilable t.status).flatMap (self.findingsOf now status))) := by
  refine ⟨perm.countP_eq _, ?_, ?_, ?_, ?_, length_eq_counts _, tabulateSummary_eq _ _⟩
  · intro t ht checked type
    have hlisted : ((listed.filter fun t => reconcilable t.status).map
        PendingTransaction.transactionId).Nodup :=
      ((perm.map _).nodup_iff.mpr distinct).sublist (List.filter_sublist.map _)
    have hmem : t ∈ listed.filter fun t => reconcilable t.status :=
      List.mem_filter.mpr ⟨perm.mem_iff.mpr ht, checked⟩
    have hcount := countP_own self now status hlisted hmem type
    show (Discrepancy status threshold t type → List.countP _ _ = 1) ∧
      (¬ Discrepancy status threshold t type → List.countP _ _ = 0)
    rw [buildSummary, hcount]
    rcases countP_findingsOf status representable checked type with ⟨h, hone⟩ | ⟨h, hzero⟩
    · exact ⟨fun _ => hone, fun hnot => absurd h hnot⟩
    · exact ⟨fun hyes => absurd hyes h, fun _ => hzero⟩
  · intro t _ checked response hresponse final differs
    obtain ⟨type, hvalue, hunknown, hstale⟩ := exists_mismatchType checked final differs
    refine ⟨type, hvalue, Or.inl ?_⟩
    rw [hresponse]
    exact (statusDiscrepancy_final final).mpr ⟨differs, hvalue⟩
  · intro f hf
    obtain ⟨t, ht, hf⟩ := List.mem_flatMap.mp hf
    obtain ⟨ht, checked⟩ := List.mem_filter.mp ht
    exact ⟨t, perm.mem_iff.mp ht, checked, findingsOf_about hf⟩
  · intro type
    cases type <;> rfl

end ReconciliationService

open ReconciliationService

/-- **A pass reports exactly the discrepancies** of the stored transactions, with the answers the
provider gives in this pass and the one reading of the clock that it makes. It raises nothing and
leaves the store as it was. -/
theorem reconciliation_exact {τ π : Type} (env : Env) (container : AppContainer τ π)
    (listing : ListedRows container.transactionRepository)
    {status : String → Except Exn PaymentStatusResponse}
    (answers : AnswersBy env container.paymentProvider status) {threshold : Datetime} (w : World τ π)
    (available : listing.Available env (w.ambient.now env).2)
    (representable : Datetime.addMinutes (env.clock w.ambient.clockReads)
      (-container.settings.reconciliationStalePendingMinutes) = some threshold) :
    ∃ summary w',
      Prog.run (handle env container) container.reconciliationService.runReconciliation w =
        (.ok summary, w') ∧
      w'.transactions = w.transactions ∧
      Exact status threshold (listing.rows w.transactions).values summary := by
  obtain ⟨listed, w', perm, hsame, hrun⟩ :=
    run_runReconciliation listing answers available representable
  exact ⟨_, w', hrun, hsame, exact_of_perm representable (listing.rows w.transactions).nodup perm⟩

/-- A provider that has completed one payment, and fails for another. -/
def oneCompleted (reference : String) : Except Exn PaymentStatusResponse :=
  if reference = "ws_CO_1" then
    .ok {
      checkoutRequestId := reference
      resultCode := "0"
      resultDescription := "done"
      status := "completed" }
  else .error (.darajaProvider "not found" "provider_error")

def oneCompletedProvider : PaymentProvider Unit where
  answer _
    | .initiatePayment _, s => (.error (.darajaProvider "closed" "provider_error"), s)
    | .checkTransactionStatus reference, s => (oneCompleted reference, s)
  takesEffect _ _ _ := false
  forward _ m a _ := by cases m <;> exact .refl a

/-- A pending payment of the provider's completed one, a failed payment and a cancelled one. -/
def threePayments : Transactions where
  values := [
    { paidTenShillings with status := .pending },
    { paidTenShillings with
      transactionId := "t2", checkoutRequestId := "ws_CO_2", status := .failed },
    { paidTenShillings with
      transactionId := "t3", checkoutRequestId := "ws_CO_3", status := .cancelled }]
  nodup := by decide

/-- At the threshold, a pass reports the pending payment twice and the failed one as unknown. -/
theorem reconciliation_exact_threePayments :
    let container := AppContainer.inMemory { reconciliationStalePendingMinutes := 0 } .development
      oneCompletedProvider
    ∃ summary w',
      Prog.run (handle .still container) container.reconciliationService.runReconciliation
        (start threePayments ()) = (.ok summary, w') ∧
      w'.transactions = threePayments ∧
      Exact oneCompleted Datetime.epoch threePayments.values summary :=
  reconciliation_exact .still
    (.inMemory { reconciliationStalePendingMinutes := 0 } .development oneCompletedProvider)
    InMemoryTransactionRepository.listedRows (fun _ _ => rfl) (start threePayments ()) trivial rfl

end MpesaMcp
