import MpesaMcp.Laws.SeparationOfDuties

/-!
# The audit log of a server

The rows of a step are the events that the application logged in it, stamped one after another with the
correlation id of the step (`Stamps`). So the id that a response carries finds in the audit log just
what its request logged (`audit_rows_of_reply`), and the list that operators see is the end of the log,
newest first (`audit_events_newest`).
-/

set_option autoImplicit false

namespace MpesaMcp

open Library Python

variable {τ π ρ : Type}

/-! ## Stamps -/

/-- The surroundings after as many rows: each drew an id and read the clock. -/
def Ambient.stamped (a : Ambient) (n : Nat) : Ambient :=
  { a with uuidDraws := a.uuidDraws + n, clockReads := a.clockReads + n }

@[simp] theorem Ambient.stamped_uuidDraws (a : Ambient) (n : Nat) :
    (a.stamped n).uuidDraws = a.uuidDraws + n := rfl

@[simp] theorem Ambient.stamped_clockReads (a : Ambient) (n : Nat) :
    (a.stamped n).clockReads = a.clockReads + n := rfl

theorem Ambient.stamped_stamped (a : Ambient) (m n : Nat) :
    (a.stamped m).stamped n = a.stamped (m + n) := by
  simp [Ambient.stamped, Nat.add_assoc]

/-- The rows of events saved one after another under a correlation id. -/
def stampRows (web : Env) (correlationId : String) : Ambient → List AuditEvent → List AuditEventRow
  | _, [] => []
  | a, event :: events =>
    event.row web (some correlationId) a :: stampRows web correlationId (a.stamped 1) events

/-- Rows are stamped one after another: a later part starts at the reading of the clock where the first
ended. -/
theorem stampRows_append (web : Env) (correlationId : String) (a : Ambient)
    (events later : List AuditEvent) :
    stampRows web correlationId a (events ++ later) =
      stampRows web correlationId a events ++
        stampRows web correlationId (a.stamped events.length) later := by
  induction events generalizing a with
  | nil => rfl
  | cons event events ih =>
    simp only [List.cons_append, stampRows, ih, List.length_cons, Ambient.stamped_stamped]
    rw [Nat.add_comm 1]

/-- Stamping adds an id, a time and the correlation id, and leaves the event as it was. -/
@[simp] theorem map_toAuditEvent_stampRows (web : Env) (correlationId : String) (a : Ambient)
    (events : List AuditEvent) :
    (stampRows web correlationId a events).map AuditEventRow.toAuditEvent = events := by
  induction events generalizing a with
  | nil => rfl
  | cons event events ih => simp only [stampRows, List.map_cons, ih, AuditEvent.row]

/-- What a row takes from the surroundings. -/
theorem mem_stampRows {web : Env} {correlationId : String} {a : Ambient} {events : List AuditEvent}
    {row : AuditEventRow} (h : row ∈ stampRows web correlationId a events) :
    ∃ n < events.length, row.eventId = web.uuid4 (a.uuidDraws + n) ∧
      row.createdAt = web.clock (a.clockReads + n) ∧ row.correlationId = some correlationId := by
  induction events generalizing a with
  | nil => cases h
  | cons event events ih =>
    rcases List.mem_cons.mp h with rfl | hlater
    · exact ⟨0, by simp, rfl, rfl, rfl⟩
    · obtain ⟨n, hn, hid, hat, hcorrelation⟩ := ih hlater
      refine ⟨n + 1, by simpa using hn, ?_, ?_, hcorrelation⟩
      · rw [hid, Ambient.stamped_uuidDraws, Nat.add_assoc, Nat.add_comm 1]
      · rw [hat, Ambient.stamped_clockReads, Nat.add_assoc, Nat.add_comm 1]

/-- Between two states, just these events were logged under this correlation id. -/
structure Stamps (web : Env) (correlationId : String) (events : List AuditEvent)
    (s t : AuditedWorld τ π) : Prop where
  logged : t.app.auditEvents = s.app.auditEvents ++ events
  rows : t.auditRows = s.auditRows ++ stampRows web correlationId s.logging events
  logging : t.logging = s.logging.stamped events.length

/-- Between two states, events were logged under this correlation id and no other. -/
def LogsUnder (web : Env) (correlationId : String) (s t : AuditedWorld τ π) : Prop :=
  ∃ events, Stamps web correlationId events s t

namespace LogsUnder

variable {web : Env} {correlationId : String} {s t u : AuditedWorld τ π}

/-- Nothing was logged. -/
theorem of_same (logged : t.app.auditEvents = s.app.auditEvents) (rows : t.auditRows = s.auditRows)
    (logging : t.logging = s.logging) : LogsUnder web correlationId s t :=
  ⟨[], ⟨by simpa using logged, by simpa [stampRows] using rows, by simpa [Ambient.stamped] using logging⟩⟩

theorem refl (s : AuditedWorld τ π) : LogsUnder web correlationId s s :=
  of_same rfl rfl rfl

/-- Two stretches of one step are one stretch, for both are stamped with the same correlation id. -/
theorem trans (h : LogsUnder web correlationId s t) (h' : LogsUnder web correlationId t u) :
    LogsUnder web correlationId s u := by
  obtain ⟨events, hevents⟩ := h
  obtain ⟨later, hlater⟩ := h'
  refine ⟨events ++ later, ?_, ?_, ?_⟩
  · rw [hlater.logged, hevents.logged, List.append_assoc]
  · rw [hlater.rows, hevents.rows, hevents.logging, stampRows_append, List.append_assoc]
  · rw [hlater.logging, hevents.logging, Ambient.stamped_stamped, List.length_append]

end LogsUnder

/-- Only `log_event` adds to what was logged. -/
theorem handle_auditEvents (env : Env) (container : AppContainer τ π) {m : Msg}
    (h : ∀ event, m ≠ .logEvent event) (w : World τ π) :
    (handle env container m w).2.auditEvents = w.auditEvents := by
  cases m with
  | logEvent event => exact absurd rfl (h event)
  | provider m => cases m <;> rfl
  | _ => rfl

/-- The step of the log: a message of a service writes the event that it logs, and stamps it there;
every other message writes no row. -/
theorem handleAudited_logs (env web : Env) (container : AppContainer τ π) (correlationId : String)
    (m : Msg) (s : AuditedWorld τ π) :
    LogsUnder web correlationId s (handleAudited container env web correlationId m s).2 := by
  cases m with
  | logEvent event => exact ⟨[event], rfl, rfl, rfl⟩
  | provider m =>
    refine .of_same ?_ rfl rfl
    exact handle_auditEvents env container (fun _ => by intro h; cases h) s.app
  | _ => exact .of_same rfl rfl rfl

/-! ## The rows of a step -/

section Steps

variable (surroundings : Surroundings) (server : Server τ π ρ)

/-- A method of a service, by the step of the log and the run rule of programs. -/
theorem serve_logs {α : Type} (correlationId : String) (method : App α) (w : ServerWorld τ π ρ) :
    LogsUnder surroundings.web correlationId w.toAuditedWorld
      (server.serve surroundings correlationId method w).2.toAuditedWorld :=
  Prog.run_related (R := LogsUnder surroundings.web correlationId) .refl
    (fun _ _ _ h h' => h.trans h')
    (fun m _ s => handleAudited_logs surroundings.env surroundings.web server.toAppContainer
      correlationId m s) (Prog.sends_true method) w.toAuditedWorld

/-- Whatever a tool asks for is logged under the correlation id of its call. -/
theorem handleTool_logs (correlationId : String) (m : McpMsg) (w : ServerWorld τ π ρ) :
    LogsUnder surroundings.web correlationId w.toAuditedWorld
      (handleTool surroundings server correlationId m w).2.toAuditedWorld := by
  cases m with
  | allow key limit windowSeconds => exact .of_same rfl rfl rfl
  | _ => exact serve_logs surroundings server correlationId _ w

/-- Whatever a route asks for is logged under the correlation id of its request. -/
theorem handleHttp_logs (correlationId : String) (m : HttpMsg) (w : ServerWorld τ π ρ) :
    LogsUnder surroundings.web correlationId w.toAuditedWorld
      (handleHttp surroundings server correlationId m w).2.toAuditedWorld := by
  cases m with
  | getOperatorPrincipal authorization => exact .refl _
  | listRecentEvents limit => exact .refl _
  | snapshot => exact .refl _
  | _ => exact serve_logs surroundings server correlationId _ w

/-- The header that names the correlation id of an input. -/
def ServerInput.correlationHeader : ServerInput → Option String
  | .request sent => sent.correlationId
  | .tool _ => none

/-- The correlation id that an input runs under. -/
def ServerInput.correlation (web : Env) (a : Ambient) (input : ServerInput) : String × Ambient :=
  correlationContext web none input.correlationHeader a

/-- **The step lemma of the audit log**: an input first chooses its correlation id, which may draw one;
everything it logs from there on is stamped with this id. -/
theorem serverStep_logs (input : ServerInput) (w : ServerWorld τ π ρ) :
    let context := input.correlation surroundings.web w.logging
    LogsUnder surroundings.web context.1 { w.toAuditedWorld with logging := context.2 }
      (serverStep surroundings server input w).2.toAuditedWorld := by
  intro context
  cases input with
  | tool call =>
    exact Prog.run_related (P := fun _ => True) (R := fun s t : ServerWorld τ π ρ =>
        LogsUnder surroundings.web context.1 s.toAuditedWorld t.toAuditedWorld)
      (fun s => .refl s.toAuditedWorld) (fun _ _ _ h h' => h.trans h')
      (fun m _ s => handleTool_logs surroundings server context.1 m s)
      (Prog.sends_true (createToolHandlers surroundings.pydantic server.toMcpDependencies call))
      { w with logging := context.2 }
  | request sent =>
    have hlogs := Prog.run_related (P := fun _ => True) (R := fun s t : ServerWorld τ π ρ =>
        LogsUnder surroundings.web context.1 s.toAuditedWorld t.toAuditedWorld)
      (fun s => .refl s.toAuditedWorld) (fun _ _ _ h h' => h.trans h')
      (fun m _ s => handleHttp_logs surroundings server context.1 m s)
      (Prog.sends_true (answered (sent.route.handler surroundings.pydantic server.runtimeSettings
        sent.authorization))) { w with logging := context.2 }
    simp only [serverStep, handleRequest]
    split <;> exact hlogs

end Steps

/-! ## The rows of a run -/

/-- The input asks to run under this id. -/
def ServerInput.Names (input : ServerInput) (id : String) : Prop :=
  ∃ text, input.correlationHeader = some text ∧ stripText text = id ∧ id ≠ ""

/-- An input runs under the id it names, stripped of the blanks around it, or under one newly drawn
where it names none or a blank one. -/
theorem correlation_cases (web : Env) (a : Ambient) (input : ServerInput) :
    (input.Names (input.correlation web a).1 ∧ (input.correlation web a).2 = a) ∨
      (∀ id, ¬ input.Names id) ∧ input.correlation web a = a.uuid4 web := by
  unfold ServerInput.correlation correlationContext normalizeCorrelationId ServerInput.Names
  cases input.correlationHeader with
  | none =>
    refine Or.inr ⟨?_, rfl⟩
    rintro id ⟨text, htext, -⟩
    cases htext
  | some text =>
    dsimp only
    by_cases hblank : stripText text = ""
    · rw [if_pos hblank]
      refine Or.inr ⟨?_, rfl⟩
      rintro id ⟨other, hother, hid, hne⟩
      cases hother
      exact hne (hid.symm.trans hblank)
    · rw [if_neg hblank]
      exact Or.inl ⟨⟨text, rfl, rfl, hblank⟩, rfl⟩

variable (surroundings : Surroundings) (server : Server τ π ρ)

/-- The rows saved between two states of a run: each under an id that an input of the steps between
named, or that was drawn between them. -/
structure RowsBetween (history : List (ServerStep τ π ρ)) (s t : ServerWorld τ π ρ)
    (rows : List AuditEventRow) : Prop where
  saved : t.auditRows = s.auditRows ++ rows
  draws : s.logging.uuidDraws ≤ t.logging.uuidDraws
  under : ∀ row ∈ rows, ∃ id, row.correlationId = some id ∧
    ((∃ st ∈ history, st.input.Names id) ∨
      ∃ n, s.logging.uuidDraws ≤ n ∧ n < t.logging.uuidDraws ∧ id = surroundings.web.uuid4 n)

/-- By induction on the inputs: the rows of a run are the rows of its steps, in their order. -/
theorem rowsBetween_run (inputs : List ServerInput) (s : ServerWorld τ π ρ) :
    ∃ rows, RowsBetween surroundings (trace (serverStep surroundings server) s inputs) s
      (final (serverStep surroundings server) s inputs) rows := by
  refine invariant (I := fun history t => ∃ rows, RowsBetween surroundings history s t rows) ?_ ?_ inputs
  · exact ⟨[], by simp, Nat.le_refl _, fun row hrow => nomatch hrow⟩
  · rintro history t input ⟨rows, h⟩
    obtain ⟨events, hstamps⟩ := serverStep_logs surroundings server input t
    have hid := correlation_cases surroundings.web t.logging input
    generalize input.correlation surroundings.web t.logging = context at hstamps hid
    obtain ⟨id, a⟩ := context
    have hdraws : (serverStep surroundings server input t).2.logging.uuidDraws =
        a.uuidDraws + events.length := congrArg Ambient.uuidDraws hstamps.logging
    have hbefore : t.logging.uuidDraws ≤ a.uuidDraws := by
      rcases hid with ⟨-, hsame⟩ | ⟨-, hdrawn⟩
      · exact Nat.le_of_eq (congrArg Ambient.uuidDraws hsame.symm)
      · rw [show a = (t.logging.uuid4 surroundings.web).2 from congrArg Prod.snd hdrawn]
        exact Nat.le_succ _
    have hs := h.draws
    refine ⟨rows ++ stampRows surroundings.web id a events, ?_, by omega, ?_⟩
    · rw [hstamps.rows]
      show t.auditRows ++ stampRows surroundings.web id a events = _
      rw [h.saved, List.append_assoc]
    · intro row hrow
      rcases List.mem_append.mp hrow with hold | hnew
      · obtain ⟨id', hrowid, hnamed | ⟨n, hlo, hhi, hn⟩⟩ := h.under row hold
        · obtain ⟨st, hst, hnames⟩ := hnamed
          exact ⟨id', hrowid, Or.inl ⟨st, List.mem_append_left _ hst, hnames⟩⟩
        · exact ⟨id', hrowid, Or.inr ⟨n, hlo, by omega, hn⟩⟩
      · obtain ⟨-, -, -, -, hrowid⟩ := mem_stampRows hnew
        refine ⟨id, hrowid, ?_⟩
        rcases hid with ⟨hnames, -⟩ | ⟨-, hdrawn⟩
        · exact Or.inl ⟨stepAt (serverStep surroundings server) t input,
            List.mem_append_right _ (List.mem_singleton_self _), hnames⟩
        · cases hdrawn
          refine Or.inr ⟨t.logging.uuidDraws, hs, ?_, rfl⟩
          rw [hdraws]
          show t.logging.uuidDraws < t.logging.uuidDraws + 1 + events.length
          omega

/-- No row saved in between is under an id that none of the inputs named and that was not drawn there. -/
theorem RowsBetween.not_under {history : List (ServerStep τ π ρ)} {s t : ServerWorld τ π ρ}
    {rows : List AuditEventRow} (h : RowsBetween surroundings history s t rows) {k : Nat}
    (unnamed : ∀ st ∈ history, ¬ st.input.Names (surroundings.web.uuid4 k))
    (outside : k < s.logging.uuidDraws ∨ t.logging.uuidDraws ≤ k) :
    rows.filter (fun row => decide (row.correlationId = some (surroundings.web.uuid4 k))) = [] := by
  apply List.filter_eq_nil_iff.mpr
  intro row hrow
  obtain ⟨id, hid, hnamed | ⟨n, hlo, hhi, hn⟩⟩ := h.under row hrow
  · obtain ⟨st, hst, hnames⟩ := hnamed
    rw [decide_eq_true_eq, hid]
    intro heq
    exact unnamed st hst (Option.some.inj heq ▸ hnames)
  · rw [decide_eq_true_eq, hid, hn]
    intro heq
    have hsame := surroundings.web.uuid4_injective (Option.some.inj heq)
    omega

/-- **The id of a response finds what its request logged**: in every run, the rows under the id that a
step drew for itself hold just the events that the application logged in this step, where no other
request names that id; a response of the step carries it, unless an exception is left unanswered. -/
theorem audit_rows_of_reply (transactions : τ) (provider : π) (limiter : ρ)
    (before later : List ServerInput) (input : ServerInput) :
    let w := ServerWorld.start transactions provider limiter
    let s := final (serverStep surroundings server) w before
    let r := serverStep surroundings server input s
    let whole := final (serverStep surroundings server) w (before ++ input :: later)
    let id := surroundings.web.uuid4 s.logging.uuidDraws
    (∀ other, ¬ input.Names other) → (∀ other ∈ before ++ later, ¬ other.Names id) →
      r.2.app.auditEvents = s.app.auditEvents ++
          (whole.auditRows.filter fun row => decide (row.correlationId = some id)).map
            AuditEventRow.toAuditEvent ∧
        ∀ reply, r.1 = .reply reply →
          reply.correlationId = some id ∨ reply.response.statusCode = 500 := by
  intro w s r whole id unnamed others
  obtain ⟨events, hstamps⟩ := serverStep_logs surroundings server input s
  have hcontext : input.correlation surroundings.web s.logging = s.logging.uuid4 surroundings.web := by
    rcases correlation_cases surroundings.web s.logging input with ⟨hnames, -⟩ | ⟨-, hdrawn⟩
    · exact absurd hnames (unnamed _)
    · exact hdrawn
  rw [hcontext] at hstamps
  refine ⟨?_, ?_⟩
  · obtain ⟨old, hold⟩ := rowsBetween_run surroundings server before w
    obtain ⟨new, hnew⟩ := rowsBetween_run surroundings server later r.2
    have hwhole : whole = final (serverStep surroundings server) r.2 later := final_append _ w before _
    have hdraws : r.2.logging.uuidDraws = s.logging.uuidDraws + 1 + events.length :=
      congrArg Ambient.uuidDraws hstamps.logging
    have hinputs : ∀ (v : ServerWorld τ π ρ) (is : List ServerInput),
        (∀ other ∈ is, ¬ other.Names id) →
        ∀ st ∈ trace (serverStep surroundings server) v is, ¬ st.input.Names id := by
      intro v is h st hst
      have hmem := List.mem_map_of_mem (f := Step.input) hst
      rw [map_input_trace] at hmem
      exact h _ hmem
    have hfilterOld := hold.not_under surroundings
      (hinputs w before fun other hother => others other (List.mem_append_left _ hother))
      (Or.inr (Nat.le_refl _))
    have hfilterNew := hnew.not_under surroundings
      (hinputs r.2 later fun other hother => others other (List.mem_append_right _ hother))
      (Or.inl (by omega))
    have hfilter : (stampRows surroundings.web id (s.logging.uuid4 surroundings.web).2 events).filter
        (fun row => decide (row.correlationId = some id)) =
        stampRows surroundings.web id (s.logging.uuid4 surroundings.web).2 events := by
      apply List.filter_eq_self.mpr
      intro row hrow
      obtain ⟨-, -, -, -, hrowid⟩ := mem_stampRows hrow
      exact decide_eq_true hrowid
    have hrows : whole.auditRows = old ++
        stampRows surroundings.web id (s.logging.uuid4 surroundings.web).2 events ++ new := by
      rw [hwhole, hnew.saved, hstamps.rows]
      show s.auditRows ++ _ ++ new = _
      rw [hold.saved]
      rfl
    rw [hrows, List.filter_append, List.filter_append, hfilterOld, hfilterNew, hfilter, List.nil_append,
      List.append_nil, map_toAuditEvent_stampRows]
    exact hstamps.logged
  · intro reply hreply
    cases input with
    | tool call => cases hreply
    | request sent =>
      have hid : (correlationContext surroundings.web none sent.correlationId s.logging).1 = id :=
        congrArg Prod.fst hcontext
      have hr : r.1 = .reply (handleRequest surroundings server sent s).1 := rfl
      rw [hr] at hreply
      cases hreply
      simp only [handleRequest]
      split
      next => exact Or.inl (congrArg some hid)
      next => exact Or.inr rfl

/-- The first review of a payment of two: its rows are found by the id of its response. -/
theorem audit_rows_of_reply_dual :
    let w : ServerWorld Transactions Unit RateWindows := .start Keyed.empty () Keyed.empty
    let run := serverStep stillSurroundings tokenServer
    let s := final run w (dualApproval.take 1)
    ∃ input later, dualApproval = dualApproval.take 1 ++ input :: later ∧
      (run input s).2.app.auditEvents = s.app.auditEvents ++
        ((final run w dualApproval).auditRows.filter fun row => decide (row.correlationId =
          some (stillSurroundings.web.uuid4 s.logging.uuidDraws))).map AuditEventRow.toAuditEvent := by
  intro w run s
  have unnamed : ∀ input ∈ dualApproval, ∀ id, ¬ input.Names id := by
    intro input hinput id
    simp only [dualApproval, List.mem_cons, List.not_mem_nil, or_false] at hinput
    rcases hinput with rfl | rfl | rfl <;> rintro ⟨text, htext, -⟩ <;> cases htext
  refine ⟨_, dualApproval.drop 2, rfl, ?_⟩
  refine (audit_rows_of_reply stillSurroundings tokenServer Keyed.empty () Keyed.empty
    (dualApproval.take 1) (dualApproval.drop 2) _ (unnamed _ ?_) ?_).1
  · exact List.mem_cons_of_mem _ List.mem_cons_self
  · intro other hother
    refine unnamed other ?_ _
    rcases List.mem_append.mp hother with hbefore | hlater
    · exact List.mem_of_mem_take hbefore
    · exact List.mem_of_mem_drop hlater

variable (surroundings : Surroundings) (server : Server τ π ρ)

/-! ## The list of audit events -/

/-- The times of the rows are consecutive readings of the clock. -/
theorem map_createdAt_stampRows (web : Env) (correlationId : String) (a : Ambient)
    (events : List AuditEvent) :
    (stampRows web correlationId a events).map AuditEventRow.createdAt =
      (List.range events.length).map fun n => web.clock (a.clockReads + n) := by
  induction events generalizing a with
  | nil => rfl
  | cons event events ih =>
    simp only [stampRows, List.map_cons, ih, List.length_cons, List.range_succ_eq_map, List.map_map,
      Ambient.stamped_clockReads]
    refine congrArg₂ List.cons rfl (List.map_congr_left fun n _ => ?_)
    simp only [Function.comp_apply, Nat.succ_eq_add_one]
    congr 1
    omega

/-- The rows hold what the application logged, at readings of the clock that follow one another. -/
structure LogKept (web : Env) (w : AuditedWorld τ π) : Prop where
  agrees : w.auditRows.map AuditEventRow.toAuditEvent = w.app.auditEvents
  times : ∃ ns : List Nat, ns.Pairwise (· < ·) ∧ (∀ n ∈ ns, n < w.logging.clockReads) ∧
    w.auditRows.map AuditEventRow.createdAt = ns.map web.clock

/-- A stretch of the log keeps its invariant: the new rows come behind the others, under ids just
drawn, and their times are later readings of the clock. -/
theorem LogKept.logs {web : Env} {correlationId : String} {s t : AuditedWorld τ π}
    (h : LogKept web s) (logs : LogsUnder web correlationId s t) : LogKept web t := by
  obtain ⟨events, hstamps⟩ := logs
  obtain ⟨ns, hsorted, hread, htimes⟩ := h.times
  have hreads : t.logging.clockReads = s.logging.clockReads + events.length :=
    congrArg Ambient.clockReads hstamps.logging
  constructor
  · rw [hstamps.rows, hstamps.logged, List.map_append, h.agrees, map_toAuditEvent_stampRows]
  · refine ⟨ns ++ (List.range events.length).map (s.logging.clockReads + ·), ?_, ?_, ?_⟩
    · apply List.pairwise_append.mpr
      refine ⟨hsorted, ?_, ?_⟩
      · apply List.Pairwise.map _ _ List.pairwise_lt_range
        intro m n hlt
        omega
      · intro m hm n hn
        obtain ⟨k, -, rfl⟩ := List.mem_map.mp hn
        have hlt := hread m hm
        omega
    · intro n hn
      rcases List.mem_append.mp hn with hold | hnew
      · have hlt := hread n hold
        omega
      · obtain ⟨k, hk, rfl⟩ := List.mem_map.mp hnew
        have hlt := List.mem_range.mp hk
        omega
    · rw [hstamps.rows, List.map_append, List.map_append, htimes, map_createdAt_stampRows, List.map_map]
      rfl

/-- Every run keeps the invariant of the log, by the step lemma and induction on the inputs; an empty
log satisfies it. -/
theorem logKept_run (transactions : τ) (provider : π) (limiter : ρ) (inputs : List ServerInput) :
    LogKept surroundings.web (final (serverStep surroundings server)
      (ServerWorld.start transactions provider limiter) inputs).toAuditedWorld := by
  refine state_invariant (I := fun w : ServerWorld τ π ρ => LogKept surroundings.web w.toAuditedWorld)
    ⟨rfl, [], .nil, by simp, rfl⟩ ?_ inputs
  intro w input h
  have hlogs := serverStep_logs surroundings server input w
  have hclock : (input.correlation surroundings.web w.logging).2.clockReads = w.logging.clockReads := by
    rcases correlation_cases surroundings.web w.logging input with ⟨-, hsame⟩ | ⟨-, hdrawn⟩
    · rw [hsame]
    · rw [hdrawn]
      rfl
  obtain ⟨ns, hsorted, hread, htimes⟩ := h.times
  have hcontext : LogKept surroundings.web
      { w.toAuditedWorld with logging := (input.correlation surroundings.web w.logging).2 } :=
    ⟨h.agrees, ns, hsorted, fun n hn => hclock ▸ hread n hn, htimes⟩
  exact hcontext.logs hlogs

/-- Rows at times that follow one another are listed from the end. -/
theorem listRecentEvents_newest {rows : List AuditEventRow} {limit : Int} (positive : 0 ≤ limit)
    (sorted : rows.Pairwise fun r r' => r.createdAt < r'.createdAt) :
    listRecentEvents limit rows = rows.reverse.take limit.toNat := by
  have hreversed : rows.mergeSort (fun s t => decide (t.createdAt ≤ s.createdAt)) = rows.reverse := by
    have htimes : (rows.map AuditEventRow.createdAt).Nodup := by
      apply List.Pairwise.map _ _ sorted
      intro r r' hlt
      exact ne_of_lt hlt
    have hsorted : (rows.mergeSort fun s t => decide (t.createdAt ≤ s.createdAt)).Pairwise
        fun s t => decide (t.createdAt ≤ s.createdAt) = true := by
      apply List.pairwise_mergeSort
      · simpa using fun a b c h h' => le_trans h' h
      · simpa using fun a b : AuditEventRow => le_total b.createdAt a.createdAt
    refine List.Perm.eq_of_pairwise ?_ hsorted ?_
      ((List.mergeSort_perm _ _).trans (List.reverse_perm rows).symm)
    · intro a b ha hb hab hba
      have ha : a ∈ rows := (List.mergeSort_perm _ _).mem_iff.mp ha
      exact List.inj_on_of_nodup_map htimes ha (List.mem_reverse.mp hb)
        (le_antisymm (of_decide_eq_true hba) (of_decide_eq_true hab))
    · apply List.pairwise_reverse.mpr
      exact sorted.imp fun hlt => decide_eq_true (le_of_lt hlt)
  rw [listRecentEvents, takeLimit, if_pos positive, hreversed]

/-- **Operators see the end of the audit log**: in every run, the list of audit events that an operator
asks for shows the events logged last, newest first and as many as the limit, where the clock moved on
between any two readings. -/
theorem audit_events_newest (transactions : τ) (provider : π) (limiter : ρ)
    (before : List ServerInput) {authorization text correlationId : Option String}
    {principal : OperatorIdentity} {limit : Int} :
    let s := final (serverStep surroundings server)
      (ServerWorld.start transactions provider limiter) before
    let sent := { route := .listAuditEvents text, authorization, correlationId : RouteRequest }
    StrictMonoOn surroundings.web.clock (Set.Iio s.logging.clockReads) →
    Admits surroundings server .viewer authorization s principal →
    limitParameter surroundings.pydantic text = .ok limit →
      ∃ rows, (handleRequest surroundings server sent s).1.response =
          { body := .auditEvents (rows.map AuditEventRow.operatorSummary) } ∧
        rows = s.auditRows.reverse.take limit.toNat ∧
        rows.map AuditEventRow.toAuditEvent = s.app.auditEvents.reverse.take limit.toNat := by
  intro s sent strict admits hlimit
  obtain ⟨hagrees, ns, hsorted, hread, htimes⟩ :=
    logKept_run surroundings server transactions provider limiter before
  have htimes : s.auditRows.map AuditEventRow.createdAt = ns.map surroundings.web.clock := htimes
  have hread : ∀ n ∈ ns, n < s.logging.clockReads := hread
  have hstrict : s.auditRows.Pairwise fun r r' => r.createdAt < r'.createdAt := by
    apply List.pairwise_map.mp
    rw [htimes]
    apply List.pairwise_map.mpr
    refine hsorted.imp_of_mem ?_
    intro m n hm hn hlt
    exact strict (hread m hm) (hread n hn) hlt
  have hbounds := limitParameter_bounds hlimit
  refine ⟨s.auditRows.reverse.take limit.toNat, ?_, rfl, ?_⟩
  · let context := correlationContext surroundings.web none correlationId s.logging
    have hr : handleRequest surroundings server sent s =
        (⟨{ body := .auditEvents ((s.auditRows.reverse.take limit.toNat).map
          AuditEventRow.operatorSummary) }, some context.1⟩,
          ServerWorld.authenticated surroundings server authorization
            { s with logging := context.2 }) := by
      apply handleRequest_admitted surroundings server sent rfl admits
      simp only [withLimit, hlimit, Prog.run_bind, Http.run_call, handleHttp, Prog.run_pure]
      rw [← listRecentEvents_newest (by omega) hstrict]
      rfl
    rw [hr]
  · rw [List.map_take, List.map_reverse, hagrees]

/-- Surroundings like the still ones, whose clock moves on by a microsecond for the first second. -/
def Env.ticking : Env where
  toRuntime := Env.still.toRuntime
  clock n := ⟨min n 1000000, by omega⟩
  clock_mono m n h := by
    show min (m : Int) 1000000 ≤ min (n : Int) 1000000
    omega
  monotonic := Env.still.monotonic
  monotonic_mono := Env.still.monotonic_mono
  uuid4 := Env.still.uuid4
  uuid4_injective := Env.still.uuid4_injective
  databaseFails := Env.still.databaseFails

/-- A server with a token for viewers. -/
def viewedServer : Server Transactions Unit RateWindows :=
  { tokenServer with runtimeSettings := { operatorViewerToken := some "viewer-token" } }

/-- A viewer is shown the events of a payment of two reviews. -/
theorem audit_events_newest_dual :
    let surroundings := { stillSurroundings with web := .ticking }
    let s : ServerWorld Transactions Unit RateWindows := final (serverStep surroundings viewedServer)
      (.start Keyed.empty () Keyed.empty) dualApproval
    ∃ rows, (handleRequest surroundings viewedServer {
        route := .listAuditEvents none, authorization := some "Bearer viewer-token" } s).1.response =
          { body := .auditEvents (rows.map AuditEventRow.operatorSummary) } ∧
      rows = s.auditRows.reverse.take 50 ∧
      rows.map AuditEventRow.toAuditEvent = s.app.auditEvents.reverse.take 50 := by
  intro surroundings s
  have hreads : s.logging.clockReads ≤ 1000000 := by decide +kernel
  have hstrict : StrictMonoOn surroundings.web.clock (Set.Iio s.logging.clockReads) := by
    intro m hm n hn hlt
    have hn : n < s.logging.clockReads := hn
    show min (m : Int) 1000000 < min (n : Int) 1000000
    omega
  have hadmits : ∃ principal, Admits surroundings viewedServer .viewer (some "Bearer viewer-token") s
      principal := exists_admits surroundings viewedServer (by decide +kernel)
  obtain ⟨principal, hadmits⟩ := hadmits
  have hlimit : limitParameter surroundings.pydantic none = .ok 50 := rfl
  exact audit_events_newest surroundings viewedServer Keyed.empty () Keyed.empty dualApproval hstrict
    hadmits hlimit

end MpesaMcp
