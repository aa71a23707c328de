import MpesaMcp.Laws.Handling

/-!
# Frames

What a message, and therefore a program made of such messages, leaves as it was. Whatever is run, the
readings of the surroundings only move forward and the record of provider calls only grows.
-/

set_option autoImplicit false

namespace MpesaMcp

open Library Python

variable {τ π α : Type} (env : Env) (container : AppContainer τ π)

/-- The world after one reading of the clock. -/
def World.readClock (env : Env) (w : World τ π) : World τ π :=
  { w with ambient := (w.ambient.now env).2 }

@[simp] theorem World.readClock_clockReads (w : World τ π) :
    (w.readClock env).ambient.clockReads = w.ambient.clockReads + 1 := rfl

@[simp] theorem World.readClock_uuidDraws (w : World τ π) :
    (w.readClock env).ambient.uuidDraws = w.ambient.uuidDraws := rfl

@[simp] theorem World.readClock_approvals (w : World τ π) :
    (w.readClock env).approvals = w.approvals := rfl

@[simp] theorem World.readClock_transactions (w : World τ π) :
    (w.readClock env).transactions = w.transactions := rfl

/-! ## One message -/

/-- The clock is read: the answer is its next reading. -/
theorem handle_now (w : World τ π) :
    handle env container .now w = (.ok (env.clock w.ambient.clockReads), w.readClock env) := rfl

/-- A change of status of a stored request. -/
theorem handle_updateStatus {approvalId : String} {r : ApprovalRequest} {w : World τ π}
    (stored : w.approvals.get approvalId = some r) (status : ApprovalStatus) :
    handle env container (.approvals (.updateStatus approvalId status)) w =
      (.ok (some (r.withStatus status (env.clock w.ambient.clockReads))),
        { w.readClock env with
          approvals := w.approvals.put (r.withStatus status (env.clock w.ambient.clockReads)) }) := by
  simp only [handle, InMemoryApprovalRepository.answer, InMemoryApprovalRepository.updateStatus,
    InMemoryApprovalRepository.get, stored]
  rfl

/-- There is nothing to write under an id that is not stored. -/
theorem handle_updateStatus_of_none {approvalId : String} {w : World τ π}
    (missing : w.approvals.get approvalId = none) (status : ApprovalStatus) :
    handle env container (.approvals (.updateStatus approvalId status)) w = (.ok none, w) := by
  simp only [handle, InMemoryApprovalRepository.answer, InMemoryApprovalRepository.updateStatus,
    InMemoryApprovalRepository.get, missing]

/-- A message that spares the approvals leaves them as they are. -/
theorem handle_approvals {m : Msg} (h : m.SparesApprovals) (w : World τ π) :
    (handle env container m w).2.approvals = w.approvals := by
  cases m with
  | approvals m => exact absurd h id
  | provider m => cases m <;> rfl
  | _ => rfl

/-- A message that is no call of `initiate_payment` leaves the record of calls as it is. -/
theorem handle_initiations {m : Msg} (h : m.SparesProvider) (w : World τ π) :
    (handle env container m w).2.initiations = w.initiations := by
  cases m with
  | provider m =>
    cases m with
    | initiatePayment args => exact absurd h id
    | checkTransactionStatus reference => rfl
  | _ => rfl

/-- No message turns back the clock or draws an id again. -/
theorem handle_forward (m : Msg) (w : World τ π) :
    w.ambient.Forward (handle env container m w).2.ambient := by
  cases m with
  | now => exact w.ambient.forward_now env
  | uuid4 => exact w.ambient.forward_uuid4 env
  | transactions m => exact container.transactionRepository.forward env m w.ambient w.transactions
  | approvals m => exact InMemoryApprovalRepository.forward_answer env m w.ambient w.approvals
  | provider m =>
    have h := container.paymentProvider.forward env m w.ambient w.provider
    cases m <;> exact h
  | checkAndStore key windowSeconds =>
    simp only [handle, InMemoryReplayProtection.checkAndStore]
    split <;> (split <;> exact w.ambient.forward_monotonic env)
  | logEvent event => exact .refl _
  | increment counter => exact .refl _

/-! ## Programs -/

/-- A projection of the world that no message of a program changes is as it was after its run. -/
theorem run_keeps {β : Type} {P : Msg → Prop} (f : World τ π → β)
    (keep : ∀ m, P m → ∀ w, f (handle env container m w).2 = f w) {p : App α} (hp : p.Sends P)
    (w : World τ π) : f (Prog.run (handle env container) p w).2 = f w :=
  Prog.run_related (R := fun s s' => f s' = f s) (fun _ => rfl) (fun _ _ _ h h' => h'.trans h) keep
    hp w

/-- The frame of the approvals: what holds of each message holds of a run, since a program changes
nothing between them. -/
theorem run_approvals {p : App α} (hp : p.Sends Msg.SparesApprovals) (w : World τ π) :
    (Prog.run (handle env container) p w).2.approvals = w.approvals :=
  run_keeps env container World.approvals (fun _ hm => handle_approvals env container hm) hp w

/-- The frame of the provider's calls, in the same way. -/
theorem run_initiations {p : App α} (hp : p.Sends Msg.SparesProvider) (w : World τ π) :
    (Prog.run (handle env container) p w).2.initiations = w.initiations :=
  run_keeps env container World.initiations (fun _ hm => handle_initiations env container hm) hp w

/-- The clock and the ids only move forward in a run. -/
theorem run_forward (p : App α) (w : World τ π) :
    w.ambient.Forward (Prog.run (handle env container) p w).2.ambient :=
  Prog.run_related (R := fun s s' => s.ambient.Forward s'.ambient) (fun s => .refl s.ambient)
    (fun _ _ _ => .trans) (fun m _ => handle_forward env container m) (Prog.sends_true p) w

/-- Neither the transactions nor the record of provider calls changed. -/
def World.Idle (w w' : World τ π) : Prop :=
  w'.transactions = w.transactions ∧ w'.initiations = w.initiations

/-- The approval service pays nothing and stores no transaction. -/
theorem run_idle {p : App α} (hp : p.Sends Msg.OfApprovals) (w : World τ π) :
    w.Idle (Prog.run (handle env container) p w).2 := by
  have keep := run_keeps env container (fun w => (w.transactions, w.initiations))
    (P := Msg.OfApprovals) ?_ hp w
  · exact Prod.mk.inj keep
  · intro m hm w
    cases m <;> first | rfl | exact absurd hm id

/-! ## One payment -/

/-- `_execute_stk_push` calls the provider at most once, for its own request, and leaves the approvals
alone; it calls it only where its key is not found. -/
theorem run_executeStkPush_initiations (request : InitiatePayment) (idempotencyKey : String)
    (w : World τ π) :
    (Prog.run (handle env container) (PaymentService.executeStkPush request idempotencyKey)
        w).2.initiations = w.initiations ∨
      ∃ call : Initiation, call.request = request ∧
        (Prog.run (handle env container) (PaymentService.executeStkPush request idempotencyKey)
          w).2.initiations = w.initiations ++ [call] := by
  simp only [PaymentService.executeStkPush, Prog.run_bind, run_ask]
  cases hfind : handle env container (.transactions (.findByIdempotencyKey idempotencyKey)) w with
  | mk found w₁ =>
  have h₁ : w₁.initiations = w.initiations := by
    have := handle_initiations env container
      (m := .transactions (.findByIdempotencyKey idempotencyKey)) trivial w
    rw [hfind] at this
    exact this
  cases found with
  | error e => exact Or.inl h₁
  | ok existing =>
    cases existing with
    | some transaction => exact Or.inl h₁
    | none =>
      right
      simp only [Prog.run_attempt, run_ask, Prog.run_bind]
      refine ⟨⟨request, container.paymentProvider.takesEffect env request
        (w₁.ambient, w₁.provider), (handle env container (.provider (.initiatePayment request))
          w₁).1⟩, rfl, ?_⟩
      have hcall : (handle env container (.provider (.initiatePayment request)) w₁).2.initiations =
          w.initiations ++ [⟨request, container.paymentProvider.takesEffect env request
            (w₁.ambient, w₁.provider), (handle env container (.provider (.initiatePayment request))
              w₁).1⟩] := by
        rw [← h₁]
        rfl
      rw [← hcall]
      cases (handle env container (.provider (.initiatePayment request)) w₁).1 with
      | error e => rfl
      | ok response =>
        exact run_initiations env container (p := PaymentService.recordInitiation request
          idempotencyKey response) (.bind ((sends_ask _).mpr trivial) fun _ =>
            .bind ((sends_ask _).mpr trivial) fun _ =>
              .bind ((sends_ask _).mpr trivial) fun _ => trivial) _

end MpesaMcp
