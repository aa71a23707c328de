import MpesaMcp.App.Environment

/-!
# Transaction state machine rules

A transaction is created pending and leaves that status at most once, to one of four terminal
statuses. A status that comes from outside is a text: `validateTransition` turns it into the status
it names, or raises.
-/

set_option autoImplicit false

namespace MpesaMcp

/-- The statuses a stored transaction can have. -/
inductive TransactionStatus
  | pending
  | completed
  | failed
  | timedOut
  | cancelled
deriving DecidableEq, Repr

namespace TransactionStatus

/-- The text stored for a status. -/
def value : TransactionStatus → String
  | .pending => "pending"
  | .completed => "completed"
  | .failed => "failed"
  | .timedOut => "timed_out"
  | .cancelled => "cancelled"

/-- `ALLOWED_STATUSES`: the texts that name a status. -/
def ofValue? (text : String) : Option TransactionStatus :=
  [pending, completed, failed, timedOut, cancelled].find? fun s => s.value == text

@[simp] theorem ofValue?_value (s : TransactionStatus) : ofValue? s.value = some s := by
  cases s <;> decide

theorem value_of_ofValue? {text : String} {s : TransactionStatus} (h : ofValue? text = some s) :
    s.value = text := by
  simpa using List.find?_some h

/-- `TERMINAL_STATUSES`. -/
def Terminal (s : TransactionStatus) : Prop := s ≠ .pending

instance (s : TransactionStatus) : Decidable s.Terminal := inferInstanceAs (Decidable (s ≠ .pending))

end TransactionStatus

/-- `ALLOWED_TRANSITIONS`. -/
def allowedTransitions : List (TransactionStatus × TransactionStatus) :=
  [(.pending, .completed), (.pending, .failed), (.pending, .timedOut), (.pending, .cancelled)]

/-- Whether a transaction can move from one status to another. -/
def canTransition (fromStatus toStatus : TransactionStatus) : Bool :=
  decide ((fromStatus, toStatus) ∈ allowedTransitions)

/-- The status a text names, where the transition to it is allowed. -/
def validateTransition (fromStatus : TransactionStatus) (toStatus : String) :
    Except Exn TransactionStatus :=
  match TransactionStatus.ofValue? toStatus with
  | none => .error (.transactionStateTransition fromStatus.value toStatus)
  | some s =>
    if canTransition fromStatus s then .ok s
    else .error (.transactionStateTransition fromStatus.value toStatus)

/-- The transitions are exactly those from pending to a terminal status. -/
theorem canTransition_iff (s t : TransactionStatus) :
    canTransition s t = true ↔ s = .pending ∧ t.Terminal := by
  cases s <;> cases t <;> decide

/-- A transition that validates leaves pending for the terminal status its text names. -/
theorem validateTransition_ok_iff {s t : TransactionStatus} {text : String} :
    validateTransition s text = .ok t ↔ s = .pending ∧ t.Terminal ∧ text = t.value := by
  unfold validateTransition
  constructor
  · intro h
    cases hv : TransactionStatus.ofValue? text with
    | none => simp only [hv, reduceCtorEq] at h
    | some u =>
      simp only [hv] at h
      split at h
      next hc =>
        cases h
        obtain ⟨hs, ht⟩ := (canTransition_iff s t).mp hc
        exact ⟨hs, ht, (TransactionStatus.value_of_ofValue? hv).symm⟩
      next => cases h
  · rintro ⟨rfl, ht, rfl⟩
    simp only [TransactionStatus.ofValue?_value]
    rw [if_pos ((canTransition_iff _ _).mpr ⟨rfl, ht⟩)]

/-- The error of a transition that does not validate. -/
theorem validateTransition_error {s : TransactionStatus} {text : String} {e : Exn}
    (h : validateTransition s text = .error e) : e = .transactionStateTransition s.value text := by
  unfold validateTransition at h
  split at h
  · cases h
    rfl
  · split at h
    · cases h
    · cases h
      rfl

end MpesaMcp
