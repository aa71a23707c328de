import MpesaMcp.Laws.Ballots
import MpesaMcp.Laws.SeparationOfDuties

/-!
# Runs of the server as ballots

What reaches the server, over either of its interfaces, says by itself who votes on which request:
`ballotEvent` reads it off the input, the identity behind it, and the policy, schema and limit of the
tool. The stored request shows the ballot of these events in every state of a run that comes before its
expiry (`approvals_are_ballots`). So nothing but votes and rejections decides a request, and as many
distinct operators as it requires always do (`approved_iff_quorum`).
-/

set_option autoImplicit false

namespace MpesaMcp

open Library Python PaymentService

variable {τ π ρ : Type} (surroundings : Surroundings) (server : Server τ π ρ)

/-! ## Who votes -/

/-- The operator behind a header, where there is one of this role. -/
def admittedPrincipal (minimumRole : OperatorRole) (authorization : Option String)
    (w : ServerWorld τ π ρ) : Option OperatorIdentity :=
  match principalOf surroundings server authorization w with
  | .ok (.ok principal) => if minimumRole.level ≤ principal.role.level then some principal else none
  | _ => none

/-- What a tool passes on to its service: an input that its policy, its schema and its limit accept. -/
def passedInput {α : Type} (toolName : String) (validated : Except (List String) α)
    (limits : RateLimitArguments) (key : α → String) (w : ServerWorld τ π ρ) : Option α :=
  if (server.toolPolicy.evaluate toolName).allowed then
    match validated with
    | .error _ => none
    | .ok toolInput =>
      if limits.enabled then
        match (server.rateLimiter.allow surroundings.env (key toolInput) limits.maxRequests
          limits.windowSeconds (w.app.ambient, w.limiter)).1 with
        | .error _ => none
        | .ok decision => if decision.allowed then some toolInput else none
      else some toolInput
  else none

/-- The request that an approval tool is about, where the call reaches the service. -/
def passedApprovalId (toolName keyPrefix : String) (approvalId : PyValue) (w : ServerWorld τ π ρ) :
    Option String :=
  passedInput surroundings server toolName
    (validateText surroundings.pydantic "approval_id" [("approval_id", approvalId)])
    (server.limits server.mcpSettings.rateLimitMaxApprovalActions) (fun id => keyPrefix ++ id) w

/-- The operation that an input has the application take on a request, if any. -/
def reviewOf (input : ServerInput) (w : ServerWorld τ π ρ) : Option Op :=
  match input with
  | .request sent =>
    match sent.route with
    | .approvePaymentRequest id =>
      (admittedPrincipal surroundings server .approver sent.authorization w).map fun principal =>
        .executeApprovedPayment id principal.operatorId
    | .rejectPaymentRequest id =>
      (admittedPrincipal surroundings server .approver sent.authorization w).map fun _ =>
        .rejectRequest id
    | _ => none
  | .tool (.approvePaymentRequest approvalId) =>
    (passedApprovalId surroundings server "approve_payment_request" "approve_payment_request:"
      approvalId w).map fun id => .executeApprovedPayment id "mcp_operator"
  | .tool (.rejectPaymentRequest approvalId) =>
    (passedApprovalId surroundings server "reject_payment_request" "reject_payment_request:"
      approvalId w).map .rejectRequest
  | .tool _ => none

/-- What a step does about the ballot of a request. -/
def ballotEvent (approvalId : String) (st : ServerStep τ π ρ) : Option (Ballot.Event String) :=
  (reviewOf surroundings server st.input st.before).bind (Op.ballotEvent approvalId)

/-! ## One step of the server -/

theorem admittedPrincipal_eq_some {minimumRole : OperatorRole} {authorization : Option String}
    {w : ServerWorld τ π ρ} {principal : OperatorIdentity} :
    admittedPrincipal surroundings server minimumRole authorization w = some principal ↔
      Admits surroundings server minimumRole authorization w principal := by
  unfold admittedPrincipal Admits
  cases principalOf surroundings server authorization w with
  | error e => simp
  | ok answer =>
    cases answer with
    | error e => simp
    | ok other =>
      by_cases hlevel : minimumRole.level ≤ other.role.level
      · simp only [if_pos hlevel, Option.some.injEq, Except.ok.injEq]
        constructor
        · rintro rfl
          exact ⟨rfl, hlevel⟩
        · exact fun h => h.1
      · simp only [if_neg hlevel, Except.ok.injEq]
        constructor
        · intro h
          cases h
        · rintro ⟨rfl, h⟩
          exact absurd h hlevel

/-- The application with its clocks read. -/
def World.Later (w v : World τ π) : Prop :=
  ∃ a : Ambient, w.ambient.Forward a ∧ v = { w with ambient := a }

/-- What a limited tool does: it passes its input on once policy, schema and rate limit let it through,
or does nothing to the application. This is what makes a vote of a tool call readable off the call. -/
theorem run_guardedTool_cases {α : Type} {toolName : String} {validated : Except (List String) α}
    {limits : RateLimitArguments} {key : α → String} {delegated : α → Mcp McpToolResponse}
    (correlationId : String) (w : ServerWorld τ π ρ) :
    let r := Prog.run (handleTool surroundings server correlationId)
      (guardedTool toolName server.toolPolicy validated (some (limits, key)) delegated) w
    (passedInput surroundings server toolName validated limits key w = none ∧
        w.app.Later r.2.app) ∨
      ∃ toolInput w₁, passedInput surroundings server toolName validated limits key w = some toolInput ∧
        w.app.Later w₁.app ∧
        r = Prog.run (handleTool surroundings server correlationId) (delegated toolInput) w₁ := by
  intro r
  have hstill : w.app.Later w.app := ⟨w.app.ambient, .refl _, rfl⟩
  have hr : r = Prog.run (handleTool surroundings server correlationId)
      (guardedTool toolName server.toolPolicy validated (some (limits, key)) delegated) w := rfl
  unfold passedInput
  cases hallowed : (server.toolPolicy.evaluate toolName).allowed with
  | false =>
    obtain ⟨response, hpolicy⟩ : ∃ response, checkToolPolicy toolName server.toolPolicy =
        some response := by
      rw [← Option.ne_none_iff_exists']
      intro hnone
      rw [checkToolPolicy_eq_none, hallowed] at hnone
      cases hnone
    simp only [guardedTool, hpolicy] at hr
    rw [hr]
    exact Or.inl ⟨rfl, hstill⟩
  | true =>
    simp only [guardedTool, checkToolPolicy_eq_none.mpr hallowed] at hr
    cases validated with
    | error errors =>
      rw [hr]
      exact Or.inl ⟨rfl, hstill⟩
    | ok toolInput =>
      simp only [checkRateLimit] at hr
      cases henabled : limits.enabled with
      | false =>
        rw [hr, henabled]
        exact Or.inr ⟨toolInput, w, rfl, hstill, rfl⟩
      | true =>
        -- the limiter reads its clock, whatever it answers
        let allowed := server.rateLimiter.allow surroundings.env (key toolInput) limits.maxRequests
          limits.windowSeconds (w.app.ambient, w.limiter)
        let w₁ : ServerWorld τ π ρ :=
          { w with app := { w.app with ambient := allowed.2.1 }, limiter := allowed.2.2 }
        have hlater : w.app.Later w₁.app :=
          ⟨allowed.2.1, server.rateLimiter.forward surroundings.env _ _ _ w.app.ambient w.limiter, rfl⟩
        have hcall : handleTool surroundings server correlationId
            (.allow (key toolInput) limits.maxRequests limits.windowSeconds) w = (allowed.1, w₁) := rfl
        simp only [henabled, Bool.not_true, Bool.false_eq_true, if_false, Prog.run_bind,
          Prog.run_attempt, Mcp.run_call, hcall] at hr
        simp only [if_true]
        cases hanswer : allowed.1 with
        | error e =>
          simp only [hanswer] at hr
          rw [hr]
          exact Or.inl ⟨rfl, hlater⟩
        | ok decision =>
          simp only [hanswer] at hr
          dsimp only
          cases hdecision : decision.allowed with
          | false =>
            rw [hdecision] at hr
            rw [hr]
            exact Or.inl ⟨rfl, hlater⟩
          | true =>
            rw [hdecision] at hr
            rw [hr]
            exact Or.inr ⟨toolInput, w₁, rfl, hlater, rfl⟩

/-- A route of an approver that makes one call, which is an operation, and answers. Whether the call is
made depends on the authentication alone. -/
theorem approvalRoute_cases (correlationId : String) (authorization : Option String)
    (op : OperatorIdentity → Op) (m : OperatorIdentity → HttpMsg)
    (f : ∀ principal, (m principal).Answer → RouteResponse)
    (takes : ∀ principal (v : ServerWorld τ π ρ),
      (handleHttp surroundings server correlationId (m principal) v).2.app =
        (step surroundings.env server.toAppContainer (op principal) v.app).2)
    (w : ServerWorld τ π ρ) :
    let w' := (Prog.run (handleHttp surroundings server correlationId)
      (operatorRoute .approver authorization fun principal => do
        let answer ← Http.call (m principal)
        pure (f principal answer)) w).2
    (admittedPrincipal surroundings server .approver authorization w = none ∧ w'.app = w.app) ∨
      ∃ principal, admittedPrincipal surroundings server .approver authorization w = some principal ∧
        w'.app = (step surroundings.env server.toAppContainer (op principal) w.app).2 := by
  intro w'
  have hw' : w' = (Prog.run (handleHttp surroundings server correlationId)
      (operatorRoute .approver authorization fun principal => do
        let answer ← Http.call (m principal)
        pure (f principal answer)) w).2 := rfl
  cases hprincipal : admittedPrincipal surroundings server .approver authorization w with
  | some principal =>
    have hadmits := (admittedPrincipal_eq_some surroundings server).mp hprincipal
    refine Or.inr ⟨principal, rfl, ?_⟩
    rw [hw', operatorRoute_admitted surroundings server correlationId hadmits]
    refine Eq.trans ?_ (takes principal (w.authenticated surroundings server authorization))
    simp only [Prog.run_bind, Http.run_call]
    split
    next w₁ hanswer => rw [hanswer, Prog.run_pure]
    next w₁ hanswer => rw [hanswer]
  | none =>
    refine Or.inl ⟨rfl, ?_⟩
    rcases operatorRoute_cases surroundings server correlationId .approver authorization
        (fun principal => do
          let answer ← Http.call (m principal)
          pure (f principal answer)) w with
      ⟨e, -, hr⟩ | ⟨e, -, hr⟩ | ⟨principal, hadmits, -⟩
    · rw [hw', hr]
      rfl
    · rw [hw', hr]
      rfl
    · rw [(admittedPrincipal_eq_some surroundings server).mpr hadmits] at hprincipal
      cases hprincipal

/-- The state of the application after a request is the one after its route. -/
theorem handleRequest_app (request : RouteRequest) (w : ServerWorld τ π ρ) :
    let context := correlationContext surroundings.web none request.correlationId w.logging
    (handleRequest surroundings server request w).2.app =
      (Prog.run (handleHttp surroundings server context.1)
        (request.route.handler surroundings.pydantic server.runtimeSettings request.authorization)
        { w with logging := context.2 }).2.app := by
  intro context
  rw [← run_answered]
  simp only [handleRequest]
  split <;> rfl

/-- What a step does about requests: it takes the one review of its input, or none. -/
inductive ReviewStep (input : ServerInput) (w w' : ServerWorld τ π ρ) : Prop
  | quiet (silent : reviewOf surroundings server input w = none)
      (drives : Drives surroundings.env server.toAppContainer
        (fun op => ∀ approvalId, op.ballotEvent approvalId = none) w.app w'.app)
  | reviews (op : Op) (v : World τ π) (review : reviewOf surroundings server input w = some op)
      (later : w.app.Later v)
      (took : w'.app = (step surroundings.env server.toAppContainer op v).2)

/-- A route that reviews takes its one operation for the operator whom the request authenticates as an
approver, and none where nobody is admitted. -/
theorem ReviewStep.of_route {request : RouteRequest} {w : ServerWorld τ π ρ}
    (op : OperatorIdentity → Op) (m : OperatorIdentity → HttpMsg)
    (f : ∀ principal, (m principal).Answer → RouteResponse)
    (review : reviewOf surroundings server (.request request) w =
      (admittedPrincipal surroundings server .approver request.authorization w).map op)
    (takes : ∀ correlationId principal (v : ServerWorld τ π ρ),
      (handleHttp surroundings server correlationId (m principal) v).2.app =
        (step surroundings.env server.toAppContainer (op principal) v.app).2)
    (handler : request.route.handler surroundings.pydantic server.runtimeSettings
        request.authorization =
      operatorRoute .approver request.authorization fun principal => do
        let answer ← Http.call (m principal)
        pure (f principal answer)) :
    ReviewStep surroundings server (.request request) w
      (handleRequest surroundings server request w).2 := by
  have happ := handleRequest_app surroundings server request w
  simp only [handler] at happ
  rcases approvalRoute_cases surroundings server
      (correlationContext surroundings.web none request.correlationId w.logging).1
      request.authorization op m f (takes _)
      { w with logging :=
        (correlationContext surroundings.web none request.correlationId w.logging).2 } with
    ⟨hnone, hsame⟩ | ⟨principal, hsome, htook⟩
  · refine .quiet ?_ ?_
    · rw [review]
      exact congrArg (Option.map op) hnone
    · rw [happ, hsame]
  · refine .reviews (op principal) w.app ?_ ⟨w.app.ambient, .refl _, rfl⟩ (happ.trans htook)
    rw [review]
    exact congrArg (Option.map op) hsome

theorem handleRequest_review (request : RouteRequest) (w : ServerWorld τ π ρ) :
    ReviewStep surroundings server (.request request) w
      (handleRequest surroundings server request w).2 := by
  have silent : (∀ op, request.Does surroundings server w op →
      ∀ approvalId, op.ballotEvent approvalId = none) →
        reviewOf surroundings server (.request request) w = none →
          ReviewStep surroundings server (.request request) w
            (handleRequest surroundings server request w).2 := by
    intro hdoes hreview
    exact .quiet hreview ((handleRequest_drives surroundings server request w).mono hdoes)
  obtain ⟨route, authorization, header⟩ := request
  cases route with
  | approvePaymentRequest id =>
    refine .of_route surroundings server (fun principal => .executeApprovedPayment id principal.operatorId)
      (fun principal => .executeApprovedPayment id principal.operatorId)
      (fun _ response => {
        statusCode := if response.status = .notFound then 404 else 200
        body := .execution response }) rfl ?_ rfl
    intro correlationId principal v
    exact serve_step surroundings server (.executeApprovedPayment id principal.operatorId)
      correlationId rfl v
  | rejectPaymentRequest id =>
    refine .of_route surroundings server (fun _ => .rejectRequest id) (fun _ => .rejectRequest id)
      (fun _ response => {
        statusCode := if response.status = .notFound then 404 else 200
        body := .decision response }) rfl ?_ rfl
    intro correlationId principal v
    exact serve_step surroundings server (.rejectRequest id) correlationId rfl v
  | handleStkCallback delivery =>
    refine silent ?_ rfl
    intro op hdoes approvalId
    cases op with
    | postCallback => rfl
    | _ => cases hdoes
  | listPendingApprovals =>
    refine silent ?_ rfl
    intro op hdoes approvalId
    cases op with
    | listPendingRequests => rfl
    | _ => cases hdoes
  | expireStaleApprovals =>
    refine silent ?_ rfl
    intro op hdoes approvalId
    cases op with
    | expireStaleApprovals => rfl
    | _ => cases hdoes
  | _ => exact silent (fun op hdoes => hdoes.elim) rfl

/-- A tool that reviews takes its one operation for the operator of the tools, whoever calls it, and
none where policy, schema or rate limit stop the call. -/
theorem ReviewStep.of_tool {call : ToolCall} {toolName keyPrefix : String} {approvalId : PyValue}
    {w : ServerWorld τ π ρ} (op : String → Op) (m : String → McpMsg)
    (respond : ∀ id, (m id).Answer → McpToolResponse)
    (review : reviewOf surroundings server (.tool call) w =
      (passedApprovalId surroundings server toolName keyPrefix approvalId w).map op)
    (takes : ∀ correlationId id (v : ServerWorld τ π ρ),
      (handleTool surroundings server correlationId (m id) v).2.app =
        (step surroundings.env server.toAppContainer (op id) v.app).2)
    (handler : createToolHandlers surroundings.pydantic server.toMcpDependencies call =
      guardedTool toolName server.toolPolicy
        (validateText surroundings.pydantic "approval_id" [("approval_id", approvalId)])
        (some (server.limits server.mcpSettings.rateLimitMaxApprovalActions, fun id => keyPrefix ++ id))
        fun id => delegate (m id) (respond id)) :
    ReviewStep surroundings server (.tool call) w (callTool surroundings server call w).2 := by
  let context := correlationContext surroundings.web none none w.logging
  have hcall : callTool surroundings server call w = Prog.run (handleTool surroundings server context.1)
      (createToolHandlers surroundings.pydantic server.toMcpDependencies call)
      { w with logging := context.2 } := rfl
  rw [handler] at hcall
  rw [hcall]
  rcases run_guardedTool_cases surroundings server context.1 { w with logging := context.2 } with
    ⟨hnone, a, hforward, happ⟩ | ⟨id, w₁, hsome, hlater, hrun⟩
  · refine .quiet ?_ ?_
    · rw [review]
      exact congrArg (Option.map op) hnone
    · rw [happ]
      exact .single (.clock hforward)
  · refine .reviews (op id) w₁.app ?_ hlater ?_
    · rw [review]
      exact congrArg (Option.map op) hsome
    · rw [hrun, delegate, Prog.run_map, Mcp.run_call]
      exact takes _ id w₁

theorem callTool_review (call : ToolCall) (w : ServerWorld τ π ρ) :
    ReviewStep surroundings server (.tool call) w (callTool surroundings server call w).2 := by
  have silent : (∀ op, call.Does op → ∀ approvalId, op.ballotEvent approvalId = none) →
      reviewOf surroundings server (.tool call) w = none →
        ReviewStep surroundings server (.tool call) w (callTool surroundings server call w).2 := by
    intro hdoes hreview
    exact .quiet hreview ((callTool_drives surroundings server call w).mono hdoes)
  cases call with
  | approvePaymentRequest approvalId =>
    refine .of_tool surroundings server (fun id => .executeApprovedPayment id "mcp_operator")
      (fun id => .executeApprovedPayment id "mcp_operator")
      (fun _ => approvalExecutionResponseToMcpResponse) rfl ?_ rfl
    intro correlationId id v
    exact serve_step surroundings server (.executeApprovedPayment id "mcp_operator") correlationId rfl v
  | rejectPaymentRequest approvalId =>
    refine .of_tool surroundings server (fun id => .rejectRequest id) (fun id => .rejectRequest id)
      (fun _ => approvalResponseToMcpResponse) rfl ?_ rfl
    intro correlationId id v
    exact serve_step surroundings server (.rejectRequest id) correlationId rfl v
  | initiateStkPush =>
    refine silent ?_ rfl
    intro op hdoes approvalId
    cases op with
    | initiateStkPush => rfl
    | _ => cases hdoes
  | initiatePayment =>
    refine silent ?_ rfl
    intro op hdoes approvalId
    cases op with
    | initiateStkPush => rfl
    | _ => cases hdoes
  | _ => exact silent (fun op hdoes => hdoes.elim) rfl

/-- **The inversion lemma of `serverStep` for reviews.** -/
theorem serverStep_review (input : ServerInput) (w : ServerWorld τ π ρ) :
    ReviewStep surroundings server input w (serverStep surroundings server input w).2 := by
  cases input with
  | request request => exact handleRequest_review surroundings server request w
  | tool call => exact callTool_review surroundings server call w

/-! ## Runs -/

section Runs

variable {approvalId : String} {a b : ApprovalRequest} {ballot : Ballot String}

theorem final_forward (inputs : List ServerInput) (w : ServerWorld τ π ρ) :
    w.app.ambient.Forward (final (serverStep surroundings server) w inputs).app.ambient := by
  refine state_invariant (I := fun v : ServerWorld τ π ρ => w.app.ambient.Forward v.app.ambient)
    (.refl _) ?_ inputs
  intro v input h
  exact h.trans (serverStep_drives surroundings server input v).forward

/-- One input of the server: a request that shows a ballot before shows it after with the event of this
input counted, as long as it is not due. An input without an event leaves it. -/
theorem serverStep_shows (input : ServerInput) {w : ServerWorld τ π ρ}
    (drawn : AllDrawn surroundings.env w.app) (stored : w.app.approvals.get approvalId = some b)
    (shows : Shows a ballot b)
    (early : surroundings.env.clock
      (serverStep surroundings server input w).2.app.ambient.clockReads < a.expiresAt) :
    ∃ b', (serverStep surroundings server input w).2.app.approvals.get approvalId = some b' ∧
      Shows a (ballot.run a.requiredReviewers (ballotEvent surroundings server approvalId
        (stepAt (serverStep surroundings server) w input)).toList) b' := by
  unfold ballotEvent
  cases serverStep_review surroundings server input w with
  | quiet silent drives =>
    have hnone : reviewOf surroundings server (stepAt (serverStep surroundings server) w input).input
        (stepAt (serverStep surroundings server) w input).before = none := silent
    rw [hnone]
    exact drives.shows surroundings.env server.toAppContainer (fun op hop => hop approvalId) drawn stored
      shows early
  | reviews op v review later took =>
    have hsome : reviewOf surroundings server (stepAt (serverStep surroundings server) w input).input
        (stepAt (serverStep surroundings server) w input).before = some op := review
    obtain ⟨ambient, hforward, rfl⟩ := later
    have hdrawn : AllDrawn surroundings.env { w.app with ambient := ambient } :=
      fun id x hx => (drawn id x hx).forward hforward
    rw [hsome]
    rw [took] at early ⊢
    exact step_shows surroundings.env server.toAppContainer op hdrawn stored shows early

/-- A run of the server, by induction on its inputs: a request that shows a ballot at its start shows
at its end the ballot that the events of the run make of it. That it is not due at the end means that
it was not due before. -/
theorem run_shows (inputs : List ServerInput) {w : ServerWorld τ π ρ}
    (drawn : AllDrawn surroundings.env w.app) (stored : w.app.approvals.get approvalId = some b)
    (shows : Shows a ballot b)
    (early : surroundings.env.clock
      (final (serverStep surroundings server) w inputs).app.ambient.clockReads < a.expiresAt) :
    ∃ b', (final (serverStep surroundings server) w inputs).app.approvals.get approvalId = some b' ∧
      Shows a (ballot.run a.requiredReviewers ((trace (serverStep surroundings server) w
        inputs).filterMap (ballotEvent surroundings server approvalId))) b' := by
  induction inputs generalizing w b ballot with
  | nil => exact ⟨b, stored, shows⟩
  | cons input inputs ih =>
    have hdrives := serverStep_drives surroundings server input w
    have hforward := final_forward surroundings server inputs (serverStep surroundings server input w).2
    obtain ⟨b', hb', hshows⟩ := serverStep_shows surroundings server input drawn stored shows
      ((surroundings.env.clock_mono hforward.clockReads).trans_lt early)
    obtain ⟨b'', hb'', hshows'⟩ := ih (hdrives.drawn drawn) hb' hshows early
    refine ⟨b'', hb'', ?_⟩
    rw [← Ballot.run_append] at hshows'
    rw [trace, List.filterMap_cons]
    cases hevent : ballotEvent surroundings server approvalId
        (stepAt (serverStep surroundings server) w input) with
    | none =>
      rw [hevent] at hshows'
      exact hshows'
    | some event =>
      rw [hevent] at hshows'
      exact hshows'

/-- Every pending request of a run is short of its quorum, by induction on the inputs, so a ballot that
is opened in the middle of a run is open indeed. -/
theorem pendingShort_run (transactions : τ) (provider : π) (limiter : ρ) (inputs : List ServerInput) :
    PendingShort (final (serverStep surroundings server)
      (ServerWorld.start transactions provider limiter) inputs).app := by
  refine state_invariant (I := fun w : ServerWorld τ π ρ => PendingShort w.app) ?_ ?_ inputs
  · intro approvalId a ha
    cases ha
  · intro w input h
    exact (serverStep_drives surroundings server input w).pendingShort surroundings.env
      server.toAppContainer h

/-- The votes of a run on a request. -/
def votes (approvalId : String) (run : List (ServerStep τ π ρ)) : List String :=
  (run.filterMap (ballotEvent surroundings server approvalId)).filterMap Ballot.Event.voter?

end Runs

/-- The first call of `dualApproval` files a request that is open. -/
theorem dualApproval_files : ∃ a, (final (serverStep stillSurroundings tokenServer)
    (ServerWorld.start Keyed.empty () Keyed.empty) (dualApproval.take 1)).app.approvals.get "1" =
      some a ∧ a.status = .pending ∧ Datetime.epoch < a.expiresAt := by
  have hfiled : ((final (serverStep stillSurroundings tokenServer)
      (ServerWorld.start Keyed.empty () Keyed.empty) (dualApproval.take 1)).app.approvals.get "1").map
        (fun a => decide (a.status = .pending ∧ Datetime.epoch < a.expiresAt)) = some true := by
    decide +kernel
  obtain ⟨a, ha, hopen⟩ := Option.map_eq_some_iff.mp hfiled
  exact ⟨a, ha, of_decide_eq_true hopen⟩

/-- **Approval requests are ballots**: from any state that the server comes to, whatever reaches it
after, a request that is pending there and not due at the end of the run is stored as it was filed, with
the reviewers and the status of the ballot that the votes and rejections of the run make. -/
theorem approvals_are_ballots (transactions : τ) (provider : π) (limiter : ρ)
    (before later : List ServerInput) :
    let w := final (serverStep surroundings server)
      (ServerWorld.start transactions provider limiter) before
    let w' := final (serverStep surroundings server) w later
    ∀ approvalId a, w.app.approvals.get approvalId = some a → a.status = .pending →
      surroundings.env.clock w'.app.ambient.clockReads < a.expiresAt →
        ∃ b, w'.app.approvals.get approvalId = some b ∧
          Shows a (Ballot.run a.requiredReviewers ⟨a.reviewerIds, none⟩
            ((trace (serverStep surroundings server) w later).filterMap
              (ballotEvent surroundings server approvalId))) b := by
  intro w w' approvalId a stored pending early
  have hdrawn : AllDrawn surroundings.env w.app :=
    (dutiesKept_run surroundings server transactions provider limiter before).drawn
  exact run_shows surroundings server later hdrawn stored (.opened pending) early

/-- The request of `dualApproval`, and its two reviews. -/
theorem approvals_are_ballots_dual :
    let w := final (serverStep stillSurroundings tokenServer)
      (ServerWorld.start Keyed.empty () Keyed.empty) (dualApproval.take 1)
    let w' := final (serverStep stillSurroundings tokenServer) w (dualApproval.drop 1)
    ∃ a b, w.app.approvals.get "1" = some a ∧ w'.app.approvals.get "1" = some b ∧
      Shows a (Ballot.run a.requiredReviewers ⟨a.reviewerIds, none⟩
        ((trace (serverStep stillSurroundings tokenServer) w (dualApproval.drop 1)).filterMap
          (ballotEvent stillSurroundings tokenServer "1"))) b := by
  intro w w'
  obtain ⟨a, hstored, hopen⟩ := dualApproval_files
  obtain ⟨b, hb, hshows⟩ := approvals_are_ballots stillSurroundings tokenServer Keyed.empty ()
    Keyed.empty (dualApproval.take 1) (dualApproval.drop 1) "1" a hstored hopen.1 hopen.2
  exact ⟨a, b, hstored, hb, hshows⟩

/-- **Enough operators approve a request, and nothing else does**: in a run that ends before a pending
request is due and in which nobody rejects it, it ends up approved where the distinct operators who
reviewed it or vote on it in the run are as many as it requires, and at least one, and pending where
they are not, in whatever order they vote and whatever else reaches the server. -/
theorem approved_iff_quorum (transactions : τ) (provider : π) (limiter : ρ)
    (before later : List ServerInput) :
    let w := final (serverStep surroundings server)
      (ServerWorld.start transactions provider limiter) before
    let w' := final (serverStep surroundings server) w later
    let run := trace (serverStep surroundings server) w later
    ∀ approvalId a, w.app.approvals.get approvalId = some a → a.status = .pending →
      surroundings.env.clock w'.app.ambient.clockReads < a.expiresAt →
      (∀ st ∈ run, ballotEvent surroundings server approvalId st ≠ some .dismiss) →
        ∃ b, w'.app.approvals.get approvalId = some b ∧ b.payload = a.payload ∧
          b.status = if max 1 a.requiredReviewers ≤
            ((a.reviewerIds ++ votes surroundings server approvalId run).toFinset.card : Int)
          then .approved else .pending := by
  intro w w' run approvalId a stored pending early standing
  have hduties := dutiesKept_run surroundings server transactions provider limiter before
  have hopen : Ballot.Open a.requiredReviewers (⟨a.reviewerIds, none⟩ : Ballot String) := {
    standing := rfl
    distinct := (hduties.stored approvalId a stored).distinct
    short := pendingShort_run surroundings server transactions provider limiter before approvalId a
      stored pending }
  obtain ⟨b, hb, hshows⟩ := run_shows surroundings server later hduties.drawn stored
    (.opened pending) early
  refine ⟨b, hb, hshows.payload, ?_⟩
  have hvotes : .dismiss ∉ run.filterMap (ballotEvent surroundings server approvalId) := by
    intro hmem
    obtain ⟨st, hst, hevent⟩ := List.mem_filterMap.mp hmem
    exact standing st hst hevent
  rw [← Ballot.map_vote_voters hvotes] at hshows
  rw [hshows.status, Ballot.verdict_run_votes hopen]
  show ApprovalStatus.ofVerdict (if max 1 a.requiredReviewers ≤
    ((a.reviewerIds ++ votes surroundings server approvalId run).toFinset.card : Int)
      then some .carried else none) = _
  split <;> rfl

theorem approved_iff_quorum_dual :
    let w := final (serverStep stillSurroundings tokenServer)
      (ServerWorld.start Keyed.empty () Keyed.empty) (dualApproval.take 1)
    let w' := final (serverStep stillSurroundings tokenServer) w (dualApproval.drop 1)
    ∃ b, w'.app.approvals.get "1" = some b ∧ b.status = .approved := by
  intro w w'
  obtain ⟨a, hstored, hopen⟩ := dualApproval_files
  have hstanding : (trace (serverStep stillSurroundings tokenServer) w (dualApproval.drop 1)).all
      (fun st => decide (ballotEvent stillSurroundings tokenServer "1" st ≠ some .dismiss)) = true := by
    decide +kernel
  have hquorum : (w.app.approvals.get "1").map (fun a => decide (max 1 a.requiredReviewers ≤
      ((a.reviewerIds ++ votes stillSurroundings tokenServer "1" (trace (serverStep stillSurroundings
        tokenServer) w (dualApproval.drop 1))).toFinset.card : Int))) = some true := by
    decide +kernel
  obtain ⟨b, hb, -, hstatus⟩ := approved_iff_quorum stillSurroundings tokenServer Keyed.empty ()
    Keyed.empty (dualApproval.take 1) (dualApproval.drop 1) "1" a hstored hopen.1 hopen.2
    fun st hst => of_decide_eq_true (List.all_eq_true.mp hstanding st hst)
  rw [hstored] at hquorum
  rw [if_pos (of_decide_eq_true (Option.some.inj hquorum))] at hstatus
  exact ⟨b, hb, hstatus⟩

end MpesaMcp
