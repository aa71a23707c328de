import MpesaMcp.App.Container
import MpesaMcp.RateLimit.Redis
import MpesaMcp.Storage.PostgresAudit

/-!
# The collaborators of the callback route

`CallbackContainer` leaves open which transaction repository, which replay protection and which audit
repository the route is wired to: the settings of a deployment choose each of them by itself. Of an
audit repository one thing is asked (`AuditRepository.alike`): what it answers to a new event id does
not depend on the events it holds.
-/

set_option autoImplicit false

namespace MpesaMcp

open Library Python

/-! ## Replay protection -/

/-- `ReplayProtectionProtocol`, over stores `ρ`. -/
structure ReplayProtection (ρ : Type) where
  checkAndStore (env : Env) (key : String) (windowSeconds : Int) :
    Ambient × ρ → Except Exn ReplayDecision × Ambient × ρ
  forward (env : Env) (key : String) (windowSeconds : Int) (a : Ambient) (store : ρ) :
    a.Forward (checkAndStore env key windowSeconds (a, store)).2.1

def InMemoryReplayProtection : ReplayProtection ReplayStore where
  checkAndStore env key windowSeconds s :=
    let r := InMemoryReplayProtection.checkAndStore env key windowSeconds s.1 s.2
    (.ok r.1, r.2.1, r.2.2)
  forward env key windowSeconds a seen := by
    simp only [InMemoryReplayProtection.checkAndStore]
    split <;> (split <;> exact a.forward_monotonic env)

namespace RedisReplayProtection

def unavailable : Exn :=
  .infrastructureUnavailable "Callback replay protection infrastructure is unavailable."

/-- `SET key "1" EX window NX` at a server that reads its own clock; an expiry that is not in the
future is an error. -/
def setIfAbsent (now : ℚ) (key : String) (windowSeconds : Int) (keys : ReplayStore) :
    Except Exn Bool × ReplayStore :=
  let live := match keys.get key with
    | some entry => decide (now < entry.2)
    | none => false
  if windowSeconds ≤ 0 then (.error (.other "invalid expire time in 'set' command"), keys)
  else if live then (.ok false, keys)
  else (.ok true, keys.put (key, now + windowSeconds))

/-- Store a callback replay key if it has not already been seen. -/
def checkAndStore (now : ℚ) (delivery : RedisDelivery) (key : String) (windowSeconds : Int)
    (keys : ReplayStore) : Except Exn ReplayDecision × ReplayStore :=
  let r := setIfAbsent now key windowSeconds keys
  match delivery, r.1 with
  | .refused, _ => (.error unavailable, keys)
  | .answerLost, _ => (.error unavailable, r.2)
  | .answered, .error _ => (.error unavailable, r.2)
  | .answered, .ok stored =>
    if stored then (.ok ⟨true, key, "Callback replay key accepted."⟩, r.2)
    else (.ok ⟨false, key, "Duplicate callback replay detected."⟩, r.2)

end RedisReplayProtection

/-- Replay keys in Redis; what becomes of a command on its way depends on the time it is sent. -/
def RedisReplayProtection (delivery : ℚ → RedisDelivery) : ReplayProtection ReplayStore where
  checkAndStore env key windowSeconds s :=
    let now := (s.1.monotonic env).1
    let r := RedisReplayProtection.checkAndStore now (delivery now) key windowSeconds s.2
    (r.1, (s.1.monotonic env).2, r.2)
  forward env _ _ a _ := a.forward_monotonic env

/-! ## Audit repositories -/

/-- `AuditRepositoryProtocol`, over stores `α`. -/
structure AuditRepository (α : Type) where
  saveEvent (env : Env) (correlationId : Option String) (event : AuditEvent) :
    Ambient × α → Except Exn Unit × Ambient × α
  eventIds : α → List String
  draws (env : Env) (correlationId : Option String) (event : AuditEvent) (a : Ambient) (events : α) :
    (saveEvent env correlationId event (a, events)).2.1.uuidDraws = a.uuidDraws + 1
  stores (env : Env) (correlationId : Option String) (event : AuditEvent) (a : Ambient) (events : α) :
    ∀ id ∈ eventIds (saveEvent env correlationId event (a, events)).2.2,
      id ∈ eventIds events ∨ id = env.uuid4 a.uuidDraws
  /-- Two stores answer a new event alike. -/
  alike (env : Env) (correlationId : Option String) (event : AuditEvent) (a : Ambient)
    (events events' : α) : env.uuid4 a.uuidDraws ∉ eventIds events →
    env.uuid4 a.uuidDraws ∉ eventIds events' →
    (saveEvent env correlationId event (a, events)).1 =
        (saveEvent env correlationId event (a, events')).1 ∧
      (saveEvent env correlationId event (a, events)).2.1 =
        (saveEvent env correlationId event (a, events')).2.1

def InMemoryAuditRepository : AuditRepository (List AuditEventRow) where
  saveEvent env correlationId event s :=
    (.ok (), ((s.1.uuid4 env).2.now env).2, s.2 ++ [event.row env correlationId s.1])
  eventIds rows := rows.map AuditEventRow.eventId
  draws _ _ _ _ _ := rfl
  stores env correlationId event a rows := by
    intro id hid
    simpa [AuditEvent.row] using hid
  alike _ _ _ _ _ _ _ _ := ⟨rfl, rfl⟩

/-- The audit table of the database. -/
def PostgresAuditRepository : AuditRepository (List AuditEventRow) where
  saveEvent env correlationId event s :=
    let r := Prog.run (PostgresAuditRepository.answer env)
      (PostgresAuditRepository.saveEvent correlationId event) s
    (r.1.map fun _ => (), r.2)
  eventIds rows := rows.map AuditEventRow.eventId
  draws env correlationId event a rows := by
    dsimp only
    rw [PostgresAuditRepository.run_saveEvent_eq]
    exact (PostgresAuditRepository.insertRow_after env rows _ _).1
  stores env correlationId event a rows := by
    dsimp only
    rw [PostgresAuditRepository.run_saveEvent_eq]
    intro id hid
    rcases (PostgresAuditRepository.insertRow_after env rows (event.row env correlationId a)
      (PostgresAuditRepository.drawn env a)).2 with hsame | hstored
    · rw [hsame] at hid
      exact Or.inl hid
    · rw [hstored] at hid
      simpa [AuditEvent.row] using hid
  alike env correlationId event a rows rows' fresh fresh' := by
    dsimp only
    rw [PostgresAuditRepository.run_saveEvent_eq, PostgresAuditRepository.run_saveEvent_eq]
    obtain ⟨hanswer, hafter⟩ := PostgresAuditRepository.insertRow_alike env
      (event.row env correlationId a) (PostgresAuditRepository.drawn env a) fresh fresh'
    exact ⟨congrArg _ hanswer, hafter⟩

/-! ## The container of the route -/

/-- A container, with the collaborators that a deployment chooses for the route. -/
structure CallbackContainer (τ π ρ α : Type) extends AppContainer τ π where
  replayProtection : ReplayProtection ρ
  auditRepository : AuditRepository α

/-- The state of such a container. -/
structure CallbackWorld (τ π ρ α : Type) where
  app : World τ π
  replay : ρ
  audit : α

section Handler

variable {τ π ρ α : Type} (container : CallbackContainer τ π ρ α)

/-- How the container answers a call of the route, within a request with this correlation id. -/
def handleCallbacks (env : Env) (correlationId : Option String) :
    Handler Exn Msg.Answer (CallbackWorld τ π ρ α)
  | .checkAndStore key windowSeconds, w =>
    let r := container.replayProtection.checkAndStore env key windowSeconds (w.app.ambient, w.replay)
    (r.1, { w with app := { w.app with ambient := r.2.1 }, replay := r.2.2 })
  | .logEvent event, w =>
    let r := container.auditRepository.saveEvent env correlationId event (w.app.ambient, w.audit)
    (r.1, { w with app := { w.app with ambient := r.2.1 }, audit := r.2.2 })
  | m, w =>
    let r := handle env container.toAppContainer m w.app
    (r.1, { w with app := r.2 })

/-- One delivery, with the surroundings at its time. -/
structure TimedDelivery where
  env : Env
  correlationId : Option String := none
  request : CallbackRequest

/-- The surroundings of a delivery are its own: nothing has been read of them before. -/
def CallbackWorld.arrive (w : CallbackWorld τ π ρ α) : CallbackWorld τ π ρ α :=
  { w with app := { w.app with ambient := {} } }

/-- Answer one delivery. -/
def deliver (d : TimedDelivery) (w : CallbackWorld τ π ρ α) :
    Except Exn CallbackResponse × CallbackWorld τ π ρ α :=
  Prog.run (handleCallbacks container d.env d.correlationId)
    (container.callbackRoute.post d.env.toRuntime d.request) w.arrive

end Handler

end MpesaMcp
