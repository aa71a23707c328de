import MpesaMcp.Approvals.Repository
import MpesaMcp.Payments.Providers
import MpesaMcp.Storage.Repositories

/-!
# What a service asks of its collaborators

A service method is an `App` program: every call that leaves the service (a repository, the provider,
the audit logger, the metrics recorder, the replay store, a clock) is one message, answered by the
container the service runs in.
-/

set_option autoImplicit false

namespace MpesaMcp

open Library Python

/-- One recorded audit event. -/
structure AuditEvent where
  eventType : String
  payload : PyDict
  actor : Option String := none

/-- The counters of `MetricsSnapshot`. -/
inductive Counter
  | toolCall
  | successfulPayment
  | failedPayment
  | approvalRequired
  | callbackReceived
  | receiptGenerated
deriving DecidableEq, Repr

/-- Operational metrics snapshot. -/
structure MetricsSnapshot where
  toolCallCount : Nat := 0
  successfulPaymentCount : Nat := 0
  failedPaymentCount : Nat := 0
  approvalRequiredCount : Nat := 0
  callbackReceivedCount : Nat := 0
  receiptGeneratedCount : Nat := 0
deriving DecidableEq, Repr

/-- Increment a named counter. -/
def MetricsSnapshot.increment (s : MetricsSnapshot) : Counter → MetricsSnapshot
  | .toolCall => { s with toolCallCount := s.toolCallCount + 1 }
  | .successfulPayment => { s with successfulPaymentCount := s.successfulPaymentCount + 1 }
  | .failedPayment => { s with failedPaymentCount := s.failedPaymentCount + 1 }
  | .approvalRequired => { s with approvalRequiredCount := s.approvalRequiredCount + 1 }
  | .callbackReceived => { s with callbackReceivedCount := s.callbackReceivedCount + 1 }
  | .receiptGenerated => { s with receiptGeneratedCount := s.receiptGeneratedCount + 1 }

/-- Decision returned by callback replay protection. -/
structure ReplayDecision where
  allowed : Bool
  key : String
  reason : String
deriving DecidableEq

/-- One call that leaves a service. -/
inductive Msg
  /-- `datetime.now(UTC)`. -/
  | now
  /-- `str(uuid4())`. -/
  | uuid4
  | transactions (m : TransactionRepositoryProtocol)
  | approvals (m : ApprovalRepositoryProtocol)
  | provider (m : PaymentProviderProtocol)
  /-- `replay_protection.check_and_store`. -/
  | checkAndStore (key : String) (windowSeconds : Int)
  /-- `audit_logger.log_event`. -/
  | logEvent (event : AuditEvent)
  /-- `metrics_recorder.increment`. -/
  | increment (counter : Counter)

/-- What each call returns. -/
abbrev Msg.Answer : Msg → Type
  | .now => Datetime
  | .uuid4 => String
  | .transactions m => m.Answer
  | .approvals m => m.Answer
  | .provider m => m.Answer
  | .checkAndStore _ _ => ReplayDecision
  | .logEvent _ => Unit
  | .increment _ => Unit

/-- A service method. -/
abbrev App (α : Type) := Prog Exn Msg.Answer α

/-- Make one call. -/
def ask (m : Msg) : App m.Answer := Prog.send m

@[simp] theorem run_ask {σ : Type} (h : Handler Exn Msg.Answer σ) (m : Msg) (s : σ) :
    @Prog.run Exn Msg Msg.Answer (no_index m.Answer) σ h (ask m) s = h m s := Prog.run_send h m s

end MpesaMcp
