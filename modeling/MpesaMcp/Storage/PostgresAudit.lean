import MpesaMcp.App.Messages
import MpesaMcp.Storage.Postgres

/-!
# The Postgres audit repository

`save_event` adds a row, commits and refreshes it, and catches nothing: an error of the database leaves
it as it is. The columns that carry an operator's identity are null for every caller modelled here and
left out.
-/

set_option autoImplicit false

namespace MpesaMcp

open Library Python

/-- A row of `AuditEventModel`. -/
structure AuditEventRow extends AuditEvent where
  eventId : String
  createdAt : Datetime
  correlationId : Option String := none

/-- The row of an event saved in these surroundings. -/
def AuditEvent.row (env : Env) (correlationId : Option String) (a : Ambient) (event : AuditEvent) :
    AuditEventRow where
  toAuditEvent := event
  eventId := env.uuid4 a.uuidDraws
  createdAt := env.clock a.clockReads
  correlationId := correlationId

/-- The column types of `AuditEventModel`. -/
structure AuditColumnsHold (row : AuditEventRow) : Prop where
  eventId : row.eventId.length ≤ 36
  eventType : row.eventType.length ≤ 128
  actor : ∀ actor ∈ row.actor, actor.length ≤ 128
  correlationId : ∀ id ∈ row.correlationId, id.length ≤ 128

instance (row : AuditEventRow) : Decidable (AuditColumnsHold row) :=
  decidable_of_iff
    (row.eventId.length ≤ 36 ∧ row.eventType.length ≤ 128 ∧ (∀ actor ∈ row.actor, actor.length ≤ 128) ∧
      ∀ id ∈ row.correlationId, id.length ≤ 128)
    ⟨fun ⟨a, b, c, d⟩ => ⟨a, b, c, d⟩, fun ⟨a, b, c, d⟩ => ⟨a, b, c, d⟩⟩

/-- One request of the audit repository to its surroundings. -/
inductive AuditCall
  | now
  | uuid4
  /-- `session.add(model)` and `session.commit()`. -/
  | commitInsert (row : AuditEventRow)
  /-- `session.refresh(model)`. -/
  | refresh (eventId : String)

/-- What each request returns. -/
abbrev AuditCall.Answer : AuditCall → Type
  | .now => Datetime
  | .uuid4 => String
  | .commitInsert _ => Unit
  | .refresh _ => AuditEventRow

namespace PostgresAuditRepository

/-- The audit table of the database: every statement may fail without effect, and the event id is the
primary key. -/
def answer (env : Env) : Handler Exn AuditCall.Answer (Ambient × List AuditEventRow)
  | .now, (a, rows) => (.ok (a.now env).1, (a.now env).2, rows)
  | .uuid4, (a, rows) => (.ok (a.uuid4 env).1, (a.uuid4 env).2, rows)
  | .commitInsert row, (a, rows) =>
    if (a.statement env).1 then
      (.error (.sqlAlchemyError "the database did not answer"), (a.statement env).2, rows)
    else if AuditColumnsHold row then
      if rows.any fun r => decide (r.eventId = row.eventId) then
        (.error uniqueViolation, (a.statement env).2, rows)
      else (.ok (), (a.statement env).2, rows ++ [row])
    else (.error dataError, (a.statement env).2, rows)
  | .refresh eventId, (a, rows) =>
    if (a.statement env).1 then
      (.error (.sqlAlchemyError "the database did not answer"), (a.statement env).2, rows)
    else
      match rows.find? fun r => decide (r.eventId = eventId) with
      | some row => (.ok row, (a.statement env).2, rows)
      | none => (.error (.sqlAlchemyError "Could not refresh instance"), (a.statement env).2, rows)

/-- Run one request. -/
def query (c : AuditCall) : Prog Exn AuditCall.Answer c.Answer := Prog.send c

/-- Save an audit event. -/
def saveEvent (correlationId : Option String) (event : AuditEvent) :
    Prog Exn AuditCall.Answer AuditEventRow := do
  let eventId ← query .uuid4
  let now ← query .now
  let model : AuditEventRow := {
    toAuditEvent := event
    eventId := eventId
    createdAt := now
    correlationId := correlationId }
  query (.commitInsert model)
  query (.refresh eventId)

/-! ## One save -/

section Save

variable (env : Env) (correlationId : Option String) (event : AuditEvent) (a : Ambient)
  (rows : List AuditEventRow)

/-- The surroundings once the id and the time of an event are drawn. -/
def drawn : Ambient := ((a.uuid4 env).2.now env).2

/-- The row is sent, and read back. -/
def insertRow (row : AuditEventRow) : Prog Exn AuditCall.Answer AuditEventRow := do
  query (.commitInsert row)
  query (.refresh row.eventId)

theorem run_saveEvent_eq :
    Prog.run (answer env) (saveEvent correlationId event) (a, rows) =
      Prog.run (answer env) (insertRow (event.row env correlationId a)) (drawn env a, rows) := by
  have huuid : answer env .uuid4 (a, rows) =
      (.ok (env.uuid4 a.uuidDraws), (a.uuid4 env).2, rows) := rfl
  have hnow : answer env .now ((a.uuid4 env).2, rows) =
      (.ok (env.clock a.clockReads), drawn env a, rows) := rfl
  simp only [saveEvent, insertRow, query, Prog.run_bind, Prog.run_send, huuid, hnow]
  rfl

/-- The INSERT of a row: the row is added, or the database raises an error of its own. -/
theorem commitInsert_cases (row : AuditEventRow) (b : Ambient) :
    let r := answer env (.commitInsert row) (b, rows)
    let accepted := env.databaseFails b.statements = false ∧ AuditColumnsHold row ∧
      ∀ other ∈ rows, other.eventId ≠ row.eventId
    (accepted ∧ r = (.ok (), (b.statement env).2, rows ++ [row])) ∨
    (¬ accepted ∧ ∃ e, r = (.error e, (b.statement env).2, rows) ∧
      ∀ message, e ≠ .infrastructureUnavailable message) := by
  intro r accepted
  have hr : r = answer env (.commitInsert row) (b, rows) := rfl
  simp only [answer] at hr
  split at hr
  next hfails =>
    refine Or.inr ⟨fun h => ?_, _, hr, fun _ h => by cases h⟩
    cases h.1.symm.trans hfails
  next hanswers =>
    have hhealthy : env.databaseFails b.statements = false := Bool.eq_false_iff.mpr hanswers
    split at hr
    next hcolumns =>
      split at hr
      next htaken =>
        refine Or.inr ⟨fun h => ?_, _, hr, fun _ h => by cases h⟩
        obtain ⟨other, hother, hid⟩ := List.any_eq_true.mp htaken
        exact h.2.2 other hother (of_decide_eq_true hid)
      next hfree =>
        refine Or.inl ⟨⟨hhealthy, hcolumns, fun other hother hid => hfree ?_⟩, hr⟩
        exact List.any_eq_true.mpr ⟨other, hother, decide_eq_true hid⟩
    next hcolumns => exact Or.inr ⟨fun h => hcolumns h.2.1, _, hr, fun _ h => by cases h⟩

/-- A refresh leaves the rows alone. -/
theorem refresh_cases (eventId : String) (b : Ambient) :
    (answer env (.refresh eventId) (b, rows)).2 = ((b.statement env).2, rows) := by
  simp only [answer]
  split
  · rfl
  · split <;> rfl

theorem insertRow_after (row : AuditEventRow) (b : Ambient) :
    let r := Prog.run (answer env) (insertRow row) (b, rows)
    r.2.1.uuidDraws = b.uuidDraws ∧ (r.2.2 = rows ∨ r.2.2 = rows ++ [row]) := by
  intro r
  have hr : r = _ := Prog.run_bind _ _ _ _
  simp only [query, Prog.run_send] at hr
  rcases commitInsert_cases env rows row b with ⟨-, hstored⟩ | ⟨-, e, hrefused, -⟩
  · rw [hstored] at hr
    rw [hr]
    dsimp only
    rw [refresh_cases]
    exact ⟨rfl, Or.inr rfl⟩
  · rw [hrefused] at hr
    rw [hr]
    exact ⟨rfl, Or.inl rfl⟩

/-- The INSERT of a row whose id is new depends on no row that is there. -/
theorem commitInsert_new (row : AuditEventRow) (b : Ambient)
    (fresh : row.eventId ∉ rows.map AuditEventRow.eventId) :
    answer env (.commitInsert row) (b, rows) =
      if (b.statement env).1 then
        (.error (.sqlAlchemyError "the database did not answer"), (b.statement env).2, rows)
      else if AuditColumnsHold row then (.ok (), (b.statement env).2, rows ++ [row])
      else (.error dataError, (b.statement env).2, rows) := by
  have hnone : rows.any (fun r => decide (r.eventId = row.eventId)) = false := by
    rw [List.any_eq_false]
    intro r hr htaken
    exact fresh (List.mem_map.mpr ⟨r, hr, of_decide_eq_true htaken⟩)
  simp only [answer, hnone]
  rfl

/-- The refresh of the row that was stored last under a new id. -/
theorem refresh_new (row : AuditEventRow) (b : Ambient)
    (fresh : row.eventId ∉ rows.map AuditEventRow.eventId) :
    answer env (.refresh row.eventId) (b, rows ++ [row]) =
      if (b.statement env).1 then
        (.error (.sqlAlchemyError "the database did not answer"), (b.statement env).2, rows ++ [row])
      else (.ok row, (b.statement env).2, rows ++ [row]) := by
  have hfind : (rows ++ [row]).find? (fun r => decide (r.eventId = row.eventId)) = some row := by
    rw [List.find?_append, List.find?_eq_none.mpr fun r hr htaken =>
      fresh (List.mem_map.mpr ⟨r, hr, of_decide_eq_true htaken⟩)]
    simp
  simp only [answer, hfind]

/-- Whether a new row is accepted does not depend on the rows that are there. -/
theorem insertRow_alike (row : AuditEventRow) (b : Ambient) {rows rows' : List AuditEventRow}
    (fresh : row.eventId ∉ rows.map AuditEventRow.eventId)
    (fresh' : row.eventId ∉ rows'.map AuditEventRow.eventId) :
    (Prog.run (answer env) (insertRow row) (b, rows)).1 =
        (Prog.run (answer env) (insertRow row) (b, rows')).1 ∧
      (Prog.run (answer env) (insertRow row) (b, rows)).2.1 =
        (Prog.run (answer env) (insertRow row) (b, rows')).2.1 := by
  simp only [insertRow, query, Prog.run_bind, Prog.run_send, commitInsert_new env rows row b fresh,
    commitInsert_new env rows' row b fresh']
  by_cases hfails : (b.statement env).1 = true
  · simp only [if_pos hfails, and_self]
  · by_cases hcolumns : AuditColumnsHold row
    · simp only [if_neg hfails, if_pos hcolumns, refresh_new env rows row _ fresh,
        refresh_new env rows' row _ fresh']
      split
      · exact ⟨rfl, rfl⟩
      · exact ⟨rfl, rfl⟩
    · simp only [if_neg hfails, if_neg hcolumns, and_self]

end Save

end PostgresAuditRepository

end MpesaMcp
