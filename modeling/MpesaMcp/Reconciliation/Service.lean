import MpesaMcp.App.Messages

/-!
# Transaction reconciliation

A read-only pass over the stored transactions that compares each with what the provider reports. An
exception of the provider is a status that could not be resolved.
-/

set_option autoImplicit false

namespace MpesaMcp

open Library Python

inductive FindingType
  | pendingLocalButProviderCompleted
  | pendingLocalButProviderFailed
  | completedLocalButProviderFailed
  | failedLocalButProviderCompleted
  | stalePendingTransaction
  | providerStatusUnknown
deriving DecidableEq, Repr

/-- The text of a finding type. -/
def FindingType.value : FindingType → String
  | .pendingLocalButProviderCompleted => "pending_local_but_provider_completed"
  | .pendingLocalButProviderFailed => "pending_local_but_provider_failed"
  | .completedLocalButProviderFailed => "completed_local_but_provider_failed"
  | .failedLocalButProviderCompleted => "failed_local_but_provider_completed"
  | .stalePendingTransaction => "stale_pending_transaction"
  | .providerStatusUnknown => "provider_status_unknown"

/-- A single reconciliation inconsistency. -/
structure ReconciliationFinding where
  findingType : FindingType
  transactionId : String
  checkoutRequestId : String
  localStatus : TransactionStatus
  providerStatus : Option String := none
  provider : String
  rail : String
  reason : String
deriving DecidableEq

/-- Summary returned after reconciliation; its status is always `ok`. -/
structure ReconciliationSummary where
  status : String := "ok"
  checkedTransactions : Nat
  findingCount : Nat
  pendingLocalButProviderCompleted : Nat
  pendingLocalButProviderFailed : Nat
  completedLocalButProviderFailed : Nat
  failedLocalButProviderCompleted : Nat
  stalePendingTransaction : Nat
  providerStatusUnknown : Nat
  findings : List ReconciliationFinding
deriving DecidableEq

/-- Detect local/provider transaction status inconsistencies. -/
structure ReconciliationService where
  stalePendingMinutes : Int

namespace ReconciliationService

/-- `RECONCILABLE_STATUSES`. -/
def reconcilable : TransactionStatus → Bool
  | .pending => true
  | .completed => true
  | .failed => true
  | _ => false

/-- `_finding`. -/
def finding (findingType : FindingType) (transaction : PendingTransaction)
    (providerStatus : Option String) (reason : String) : ReconciliationFinding where
  findingType := findingType
  transactionId := transaction.transactionId
  checkoutRequestId := transaction.checkoutRequestId
  localStatus := transaction.status
  providerStatus := providerStatus
  provider := transaction.provider
  rail := transaction.rail
  reason := reason

/-- `provider_transaction_id or checkout_request_id`: an empty id is passed over. -/
def providerReference (transaction : PendingTransaction) : String :=
  match transaction.providerTransactionId with
  | some id => if id = "" then transaction.checkoutRequestId else id
  | none => transaction.checkoutRequestId

/-- `_provider_status`. -/
def providerStatus (transaction : PendingTransaction) : App (Option PaymentStatusResponse) := do
  let reference := providerReference transaction
  match ← (ask (.provider (.checkTransactionStatus reference))).attempt with
  | .ok status => pure (some status)
  | .error _ => pure none

/-- The mismatch of a stored status with a final status of the provider. -/
def mismatch (transaction : PendingTransaction) (status : String) : List ReconciliationFinding :=
  if transaction.status = .pending ∧ status = "completed" then
    [finding .pendingLocalButProviderCompleted transaction (some status)
      "Local transaction is pending but provider reports completed."]
  else if transaction.status = .pending ∧ status = "failed" then
    [finding .pendingLocalButProviderFailed transaction (some status)
      "Local transaction is pending but provider reports failed."]
  else if transaction.status = .completed ∧ status = "failed" then
    [finding .completedLocalButProviderFailed transaction (some status)
      "Local transaction is completed but provider reports failed."]
  else if transaction.status = .failed ∧ status = "completed" then
    [finding .failedLocalButProviderCompleted transaction (some status)
      "Local transaction is failed but provider reports completed."]
  else []

/-- `_provider_mismatch_findings`. -/
def providerMismatchFindings (transaction : PendingTransaction) :
    App (List ReconciliationFinding) := do
  match ← providerStatus transaction with
  | none =>
    pure [finding .providerStatusUnknown transaction none
      "Provider status could not be resolved to a final state."]
  | some response =>
    if response.status ≠ "completed" ∧ response.status ≠ "failed" then
      pure [finding .providerStatusUnknown transaction (some response.status)
        "Provider status could not be resolved to a final state."]
    else pure (mismatch transaction response.status)

/-- `_stale_pending_findings`. -/
def stalePendingFindings (self : ReconciliationService) (transaction : PendingTransaction)
    (now : Datetime) : App (List ReconciliationFinding) :=
  if transaction.status ≠ .pending then pure []
  else
    match Datetime.addMinutes now (-self.stalePendingMinutes) with
    | none => .raise (.overflowError "date value out of range")
    | some threshold =>
      if threshold < transaction.createdAt then pure []
      else
        pure [finding .stalePendingTransaction transaction none
          "Local pending transaction is older than the configured threshold."]

/-- The loop of `run_reconciliation`: the number of checked transactions and the findings. -/
def reconcileEach (self : ReconciliationService) (now : Datetime) :
    List PendingTransaction → App (Nat × List ReconciliationFinding)
  | [] => pure (0, [])
  | transaction :: rest =>
    if reconcilable transaction.status then do
      let stale ← self.stalePendingFindings transaction now
      let mismatches ← providerMismatchFindings transaction
      let (checked, findings) ← self.reconcileEach now rest
      pure (checked + 1, stale ++ mismatches ++ findings)
    else self.reconcileEach now rest

/-! The counting table of `_build_summary` is a dictionary under the texts of the finding types;
`buildSummary` is what it comes down to. -/

/-- `counts[key] += 1`; a key that is not in the table is a `KeyError`. -/
def countKey : List (String × Nat) → String → Option (List (String × Nat))
  | [], _ => none
  | (k, n) :: counts, key =>
    if k = key then some ((k, n + 1) :: counts) else (countKey counts key).map ((k, n) :: ·)

/-- The counting loop. -/
def countFindings : List (String × Nat) → List ReconciliationFinding →
    Option (List (String × Nat))
  | counts, [] => some counts
  | counts, f :: findings =>
    (countKey counts f.findingType.value).bind fun counts => countFindings counts findings

/-- `counts[key]`. -/
def readCount (counts : List (String × Nat)) (key : String) : Option Nat :=
  (counts.find? fun entry => decide (entry.1 = key)).map Prod.snd

/-- `_build_summary` with its table, where it raises no `KeyError`. -/
def tabulateSummary (checked : Nat) (findings : List ReconciliationFinding) :
    Option ReconciliationSummary := do
  let counts ← countFindings [
    ("pending_local_but_provider_completed", 0),
    ("pending_local_but_provider_failed", 0),
    ("completed_local_but_provider_failed", 0),
    ("failed_local_but_provider_completed", 0),
    ("stale_pending_transaction", 0),
    ("provider_status_unknown", 0)] findings
  some {
    checkedTransactions := checked
    findingCount := findings.length
    findings := findings
    pendingLocalButProviderCompleted := ← readCount counts "pending_local_but_provider_completed"
    pendingLocalButProviderFailed := ← readCount counts "pending_local_but_provider_failed"
    completedLocalButProviderFailed := ← readCount counts "completed_local_but_provider_failed"
    failedLocalButProviderCompleted := ← readCount counts "failed_local_but_provider_completed"
    stalePendingTransaction := ← readCount counts "stale_pending_transaction"
    providerStatusUnknown := ← readCount counts "provider_status_unknown" }

/-- `_build_summary`. -/
def buildSummary (checked : Nat) (findings : List ReconciliationFinding) :
    ReconciliationSummary where
  checkedTransactions := checked
  findingCount := findings.length
  pendingLocalButProviderCompleted := count .pendingLocalButProviderCompleted
  pendingLocalButProviderFailed := count .pendingLocalButProviderFailed
  completedLocalButProviderFailed := count .completedLocalButProviderFailed
  failedLocalButProviderCompleted := count .failedLocalButProviderCompleted
  stalePendingTransaction := count .stalePendingTransaction
  providerStatusUnknown := count .providerStatusUnknown
  findings := findings
where
  count (findingType : FindingType) : Nat :=
    findings.countP fun f => decide (f.findingType = findingType)

/-- Run a read-only reconciliation pass. -/
def runReconciliation (self : ReconciliationService) : App ReconciliationSummary := do
  let now ← ask .now
  let transactions ← ask (.transactions .listTransactions)
  let (checked, findings) ← self.reconcileEach now transactions
  pure (buildSummary checked findings)

end ReconciliationService

end MpesaMcp
