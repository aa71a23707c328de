import MpesaMcp.App.CallbackServices

/-!
# The container in postgres mode

Transactions and audit events live in one database, so an audit event is written by statements that may
fail like those of a transaction. Everything else is answered as in any container.
-/

set_option autoImplicit false

namespace MpesaMcp

open Library Python

/-- The state of a container whose audit events live in the database. -/
structure PostgresWorld (π : Type) where
  app : World TransactionTable π
  auditRows : List AuditEventRow := []

/-- How a container in postgres mode answers a call of a service, within a request with this
correlation id. -/
def handlePostgres {π : Type} (env : Env) (container : AppContainer TransactionTable π)
    (correlationId : Option String) : Handler Exn Msg.Answer (PostgresWorld π)
  | .logEvent event, w =>
    let r := Prog.run (PostgresAuditRepository.answer env)
      (PostgresAuditRepository.saveEvent correlationId event) (w.app.ambient, w.auditRows)
    (r.1.map fun _ => (), { app := { w.app with ambient := r.2.1 }, auditRows := r.2.2 })
  | m, w =>
    let r := handle env container m w.app
    (r.1, { w with app := r.2 })

/-- The same container, with its collaborators made explicit. -/
def AppContainer.withPostgresAudit {π : Type} (container : AppContainer TransactionTable π) :
    CallbackContainer TransactionTable π ReplayStore (List AuditEventRow) where
  toAppContainer := container
  replayProtection := InMemoryReplayProtection
  auditRepository := PostgresAuditRepository

/-- The state of the one as a state of the other: the replay keys are those of the container. -/
def CallbackWorld.toPostgres {π : Type}
    (w : CallbackWorld TransactionTable π ReplayStore (List AuditEventRow)) : PostgresWorld π where
  app := { w.app with seen := w.replay }
  auditRows := w.audit

/-- A program runs in the one as in the other. -/
theorem run_withPostgresAudit {π β : Type} (env : Env) (container : AppContainer TransactionTable π)
    (correlationId : Option String) (p : App β)
    (w : CallbackWorld TransactionTable π ReplayStore (List AuditEventRow)) :
    let r := Prog.run (handleCallbacks container.withPostgresAudit env correlationId) p w
    Prog.run (handlePostgres env container correlationId) p w.toPostgres = (r.1, r.2.toPostgres) := by
  intro r
  have hstep : ∀ m, True → ∀ s t, t = CallbackWorld.toPostgres s →
      (handleCallbacks container.withPostgresAudit env correlationId m s).1 =
        (handlePostgres env container correlationId m t).1 ∧
      (handlePostgres env container correlationId m t).2 =
        (handleCallbacks container.withPostgresAudit env correlationId m s).2.toPostgres := by
    rintro m - s t rfl
    cases m with
    | provider m => cases m <;> exact ⟨rfl, rfl⟩
    | _ => exact ⟨rfl, rfl⟩
  obtain ⟨hanswer, hworld⟩ := Prog.run_simulates hstep (Prog.sends_true p)
    (rfl : w.toPostgres = w.toPostgres)
  exact Prod.ext hanswer.symm hworld

end MpesaMcp
