import MpesaMcp.Laws.Authority

/-!
# Refused requests do not interfere

A request of an operator whose credentials are refused, or whose role is below the one its route
requires, leaves no trace but the correlation id it drew. Where operators are authenticated without an
identity provider on the network, a run with all such requests left out ends in the same state and
answers the other requests and all tool calls alike, but for the ids that are drawn
(`refused_noninterfering`).
-/

set_option autoImplicit false

namespace MpesaMcp

open Library Python

variable {τ π ρ : Type} (surroundings : Surroundings) (server : Server τ π ρ)

/-! ## Authentication without a network -/

/-- Operators are authenticated by a token or as the one of development, or not at all. -/
def AuthenticatesLocally (settings : RuntimeSettings) : Prop :=
  settings.operatorAuthEnabled = false ∨
    ¬ (settings.authMode = "oidc" ∧ settings.oidcProviderMode = "jwks")

/-- A program that asks nothing after one that asks nothing. -/
theorem asksNothing_bind {ε M α β : Type} {A : M → Type} {p : Prog ε A α} {f : α → Prog ε A β}
    (hp : ∃ answer, p = Prog.ofExcept answer)
    (hf : ∀ a, p = pure a → ∃ answer, f a = Prog.ofExcept answer) :
    ∃ answer, p >>= f = Prog.ofExcept answer := by
  obtain ⟨answer, rfl⟩ := hp
  cases answer with
  | error e => exact ⟨.error e, rfl⟩
  | ok a => exact hf a rfl

/-- A provider that answers at once is constructed, or none is. -/
theorem identityProvider_local {settings : RuntimeSettings} (jwt : PyJwt)
    (locally : ¬ (settings.authMode = "oidc" ∧ settings.oidcProviderMode = "jwks")) :
    ∃ answer, (identityProvider settings : Oidc jwt IdentityProvider) = Prog.ofExcept answer ∧
      answer ≠ .ok .jwks := by
  unfold identityProvider
  split_ifs with htoken hdevelopment
  · exact ⟨.ok .token, rfl, by simp⟩
  · exact ⟨.ok .development, rfl, by simp⟩
  · exact ⟨.error _, rfl, by simp⟩

/-- A provider that asks no server answers at once, from the settings and the token. -/
theorem authenticate_local (settings : RuntimeSettings) {jwt : PyJwt} (credential : Option String)
    {provider : IdentityProvider} (locally : provider ≠ .jwks) :
    ∃ answer, (provider.authenticate settings credential : Oidc jwt _) = Prog.ofExcept answer := by
  cases provider with
  | token => exact ⟨tokenAuthenticate settings credential, rfl⟩
  | development => exact ⟨.ok (developmentAuthenticate settings credential), rfl⟩
  | jwks => exact absurd rfl locally

/-- The answer to a header is then always the same, and nothing is asked for it. -/
theorem getOperatorPrincipal_fixed {settings : RuntimeSettings} (locally : AuthenticatesLocally settings)
    {jwt : PyJwt} (authorization : Option String) :
    ∃ answer : Except Exn (Except HttpException OperatorIdentity),
      (getOperatorPrincipal settings authorization : Oidc jwt _) = Prog.ofExcept answer := by
  unfold getOperatorPrincipal
  split_ifs with henabled
  · exact ⟨.ok _, rfl⟩
  · have hno : ¬ (settings.authMode = "oidc" ∧ settings.oidcProviderMode = "jwks") := by
      rcases locally with hdisabled | hno
      · simp [hdisabled] at henabled
      · exact hno
    cases extractBearerToken authorization with
    | none => exact ⟨.ok _, rfl⟩
    | some token =>
      obtain ⟨answer, hanswer, hlocal⟩ := identityProvider_local jwt hno
      refine asksNothing_bind ⟨answer, hanswer⟩ fun provider hprovider => ?_
      have hne : provider ≠ .jwks := by
        rintro rfl
        cases answer with
        | error e => cases hanswer.symm.trans hprovider
        | ok found =>
          cases hanswer.symm.trans hprovider
          exact hlocal rfl
      refine asksNothing_bind (authenticate_local settings (some token) hne) fun identity _ => ?_
      cases identity with
      | none => exact ⟨.ok (.error unauthorized), rfl⟩
      | some identity => exact ⟨.ok (.ok identity), rfl⟩

/-- The role that a route requires. -/
def Route.minimumRole : Route → Option OperatorRole
  | .handleStkCallback _ => none
  | .health => none
  | .metrics => none
  | .listPendingApprovals => some .approver
  | .expireStaleApprovals => some .approver
  | .getApproval _ => some .approver
  | .approvePaymentRequest _ => some .approver
  | .rejectPaymentRequest _ => some .approver
  | .runReconciliation => some .admin
  | _ => some .viewer

/-- The routes for operators share their gate: it comes first, with the role of the route. -/
theorem handler_operatorRoute (pydantic : Pydantic) (settings : RuntimeSettings)
    (authorization : Option String) {route : Route} {minimumRole : OperatorRole}
    (h : route.minimumRole = some minimumRole) :
    ∃ body, route.handler pydantic settings authorization =
      operatorRoute minimumRole authorization body := by
  cases route <;> cases h <;> exact ⟨_, rfl⟩

/-- What a header resolves to at once, with nothing asked for it before. -/
def principalAtOnce (authorization : Option String) : Except Exn (Except HttpException OperatorIdentity) :=
  (Prog.run (handleOidc surroundings.web surroundings.jwt surroundings.identityProvider)
    (getOperatorPrincipal server.runtimeSettings authorization) {}).1

/-- The credentials of a request are refused, or their role is below the one its route requires. -/
def RouteRequest.refused (sent : RouteRequest) : Bool :=
  match sent.route.minimumRole, principalAtOnce surroundings server sent.authorization with
  | none, _ => false
  | some minimumRole, .ok (.ok principal) => !decide (minimumRole.level ≤ principal.role.level)
  | some _, _ => true

def ServerInput.refused : ServerInput → Bool
  | .request sent => sent.refused surroundings server
  | .tool _ => false

section Refused

/-- Where no server is asked, whom a header authenticates depends on the header alone, and asking
changes nothing. -/
theorem principalOf_fixed (locally : AuthenticatesLocally server.runtimeSettings)
    (authorization : Option String) (w : ServerWorld τ π ρ) :
    principalOf surroundings server authorization w =
        principalAtOnce surroundings server authorization ∧
      w.authenticated surroundings server authorization = w := by
  obtain ⟨answer, hanswer⟩ := @getOperatorPrincipal_fixed _ locally surroundings.jwt authorization
  simp only [principalOf, principalAtOnce, ServerWorld.authenticated, hanswer, Prog.run_ofExcept]
  exact ⟨trivial, trivial⟩

/-- A request that is refused only draws its correlation id. -/
theorem handleRequest_refused (locally : AuthenticatesLocally server.runtimeSettings)
    {sent : RouteRequest} (h : sent.refused surroundings server = true) (w : ServerWorld τ π ρ) :
    (handleRequest surroundings server sent w).2 =
      { w with
        logging := (correlationContext surroundings.web none sent.correlationId w.logging).2 } := by
  let context := correlationContext surroundings.web none sent.correlationId w.logging
  have hrun : ∀ v : ServerWorld τ π ρ, (Prog.run (handleHttp surroundings server context.1)
      (sent.route.handler surroundings.pydantic server.runtimeSettings sent.authorization) v).2 = v := by
    intro v
    obtain ⟨hprincipal, hsame⟩ := principalOf_fixed surroundings server locally
      sent.authorization v
    unfold RouteRequest.refused at h
    cases hrole : sent.route.minimumRole with
    | none => simp [hrole] at h
    | some minimumRole =>
      obtain ⟨body, hbody⟩ := handler_operatorRoute surroundings.pydantic server.runtimeSettings
        sent.authorization hrole
      rw [hbody]
      rcases operatorRoute_cases surroundings server context.1 minimumRole sent.authorization body v with
        ⟨e, -, hr⟩ | ⟨e, -, hr⟩ | ⟨principal, ⟨hadmitted, hlevel⟩, -⟩
      · rw [hr]
        exact hsame
      · rw [hr]
        exact hsame
      · rw [hprincipal] at hadmitted
        simp [hrole, hadmitted, hlevel] at h
  have hanswered := run_answered (handleHttp surroundings server context.1)
    (sent.route.handler surroundings.pydantic server.runtimeSettings sent.authorization)
    { w with logging := context.2 }
  rw [hrun] at hanswered
  simp only [handleRequest]
  split <;> exact hanswered

end Refused

/-! ## What draws leave alone -/

/-- An audit event without the ids it was given. -/
def AuditEventRow.withoutIds (event : AuditEventRow) : AuditEventRow :=
  { event with eventId := "", correlationId := none }

/-- The same for a list of them. -/
def HttpBody.withoutIds : HttpBody → HttpBody
  | .auditEvents events =>
    .auditEvents (events.map fun event => { event with eventId := "", correlationId := none })
  | body => body

def RouteResponse.withoutIds (response : RouteResponse) : RouteResponse :=
  { response with body := response.body.withoutIds }

/-- What is answered, but for the ids that are drawn. -/
def ServerOutput.withoutIds : ServerOutput → ServerOutput
  | .reply answer => .reply ⟨answer.response.withoutIds, answer.correlationId.map fun _ => ""⟩
  | .tool response => .tool response

/-- Two states of the stores behind a server that differ in drawn ids. -/
structure AuditedWorld.Alike (s t : AuditedWorld τ π) : Prop where
  app : s.app = t.app
  clockReads : s.logging.clockReads = t.logging.clockReads
  auditRows : s.auditRows.map AuditEventRow.withoutIds = t.auditRows.map AuditEventRow.withoutIds

/-- Two states of a server that differ in drawn ids. -/
structure ServerWorld.Alike (s t : ServerWorld τ π ρ) : Prop where
  audited : s.toAuditedWorld.Alike t.toAuditedWorld
  limiter : s.limiter = t.limiter
  identities : s.identities = t.identities

/-- The call whose answer shows drawn ids. -/
def HttpMsg.ListsEvents : HttpMsg → Prop
  | .listRecentEvents _ => True
  | _ => False

namespace ServerWorld.Alike

variable {s t : ServerWorld τ π ρ}

/-- An id that is drawn, or not. -/
theorem drawn (h : s.Alike t) {a b : Ambient} (ha : a.clockReads = s.logging.clockReads)
    (hb : b.clockReads = t.logging.clockReads) :
    ServerWorld.Alike { s with logging := a } { t with logging := b } where
  audited := ⟨h.audited.app, (ha.trans h.audited.clockReads).trans hb.symm, h.audited.auditRows⟩
  limiter := h.limiter
  identities := h.identities

/-- One message in two worlds that are alike: it is answered alike, and leaves them alike. Only the ids
they draw may differ. -/
theorem handleAudited (container : AppContainer τ π) (env web : Env) (id id' : String) (m : Msg)
    {s t : AuditedWorld τ π} (h : s.Alike t) :
    (MpesaMcp.handleAudited container env web id m s).1 =
        (MpesaMcp.handleAudited container env web id' m t).1 ∧
      (MpesaMcp.handleAudited container env web id m s).2.Alike
        (MpesaMcp.handleAudited container env web id' m t).2 := by
  obtain ⟨app, logging, rows⟩ := s
  obtain ⟨app', logging', rows'⟩ := t
  obtain ⟨happ, hclock, hrows⟩ := h
  dsimp only at happ hclock hrows
  subst happ
  cases m with
  | logEvent event =>
    refine ⟨rfl, rfl, ?_, ?_⟩
    · show logging.clockReads + 1 = logging'.clockReads + 1
      rw [hclock]
    · simp only [MpesaMcp.handleAudited, List.map_append, hrows, List.map_cons, List.map_nil]
      refine congrArg (rows'.map AuditEventRow.withoutIds ++ ·) ?_
      simp only [AuditEvent.row, AuditEventRow.withoutIds, hclock]
  | _ => exact ⟨rfl, rfl, hclock, hrows⟩

/-- A method of a service keeps two worlds alike and is answered alike in both, by induction on its
messages. -/
theorem serve {α : Type} (h : s.Alike t) (id id' : String) (method : App α) :
    (server.serve surroundings id method s).1 = (server.serve surroundings id' method t).1 ∧
      (server.serve surroundings id method s).2.Alike (server.serve surroundings id' method t).2 := by
  obtain ⟨hanswer, hafter⟩ := Prog.run_simulates (P := fun _ => True)
    (fun m _ _ _ hst => handleAudited server.toAppContainer surroundings.env surroundings.web id id' m hst)
    (Prog.sends_true method) h.audited
  exact ⟨hanswer, hafter, h.limiter, h.identities⟩

/-- A call of a tool is answered alike. -/
theorem handleTool (h : s.Alike t) (id id' : String) (m : McpMsg) :
    (MpesaMcp.handleTool surroundings server id m s).1 =
        (MpesaMcp.handleTool surroundings server id' m t).1 ∧
      (MpesaMcp.handleTool surroundings server id m s).2.Alike
        (MpesaMcp.handleTool surroundings server id' m t).2 := by
  cases m with
  | allow key limit windowSeconds =>
    have happ := h.audited.app
    have hlimiter := h.limiter
    simp only [MpesaMcp.handleTool, happ, hlimiter]
    exact ⟨trivial, ⟨rfl, h.audited.clockReads, h.audited.auditRows⟩, rfl, h.identities⟩
  | _ => exact h.serve surroundings server id id' _

/-- A tool is answered alike. -/
theorem tool {α : Type} (h : s.Alike t) (id id' : String) (p : Prog Exn McpMsg.Answer α) :
    (Prog.run (MpesaMcp.handleTool surroundings server id) p s).1 =
        (Prog.run (MpesaMcp.handleTool surroundings server id') p t).1 ∧
      (Prog.run (MpesaMcp.handleTool surroundings server id) p s).2.Alike
        (Prog.run (MpesaMcp.handleTool surroundings server id') p t).2 := by
  refine Prog.run_simulates (P := fun _ => True) (R := ServerWorld.Alike) ?_ (Prog.sends_true p) h
  intro m _ s t hst
  exact hst.handleTool surroundings server id id' m

/-- A call of a route is answered alike, except for a list of audit events. -/
theorem handleHttp (h : s.Alike t) (id id' : String) {m : HttpMsg}
    (other : ¬ m.ListsEvents) :
    (MpesaMcp.handleHttp surroundings server id m s).1 =
        (MpesaMcp.handleHttp surroundings server id' m t).1 ∧
      (MpesaMcp.handleHttp surroundings server id m s).2.Alike
        (MpesaMcp.handleHttp surroundings server id' m t).2 := by
  cases m with
  | getOperatorPrincipal authorization =>
    have hidentities := h.identities
    simp only [MpesaMcp.handleHttp, hidentities]
    exact ⟨trivial, h.audited, h.limiter, rfl⟩
  | snapshot =>
    refine ⟨?_, h⟩
    show Except.ok s.app.metrics = Except.ok t.app.metrics
    rw [h.audited.app]
  | listRecentEvents limit => exact absurd trivial other
  | _ => exact h.serve surroundings server id id' _

/-- Such a list shows the same events. -/
theorem listRecentEvents (h : s.Alike t) (limit : Int) :
    (MpesaMcp.listRecentEvents limit s.auditRows).map AuditEventRow.withoutIds =
      (MpesaMcp.listRecentEvents limit t.auditRows).map AuditEventRow.withoutIds := by
  have hsorted : ∀ rows : List AuditEventRow,
      (MpesaMcp.listRecentEvents limit rows).map AuditEventRow.withoutIds =
        MpesaMcp.listRecentEvents limit (rows.map AuditEventRow.withoutIds) := by
    intro rows
    simp only [MpesaMcp.listRecentEvents, takeLimit]
    rw [← List.map_mergeSort (r := fun a b : AuditEventRow => decide (b.createdAt ≤ a.createdAt))
      (f := AuditEventRow.withoutIds) fun _ _ _ _ => rfl]
    simp only [List.length_map]
    split <;> exact List.map_take ..
  rw [hsorted, hsorted, h.audited.auditRows]

/-- A route that lists no audit events. -/
theorem route {α : Type} {p : Http α} (sends : p.Sends fun m => ¬ m.ListsEvents)
    (h : s.Alike t) (id id' : String) :
    (Prog.run (MpesaMcp.handleHttp surroundings server id) p s).1 =
        (Prog.run (MpesaMcp.handleHttp surroundings server id') p t).1 ∧
      (Prog.run (MpesaMcp.handleHttp surroundings server id) p s).2.Alike
        (Prog.run (MpesaMcp.handleHttp surroundings server id') p t).2 := by
  refine Prog.run_simulates (R := ServerWorld.Alike) ?_ sends h
  intro m hm s t hst
  exact hst.handleHttp surroundings server id id' hm

end ServerWorld.Alike

/-! ## Routes -/

/-- What a route of an operator sends. -/
theorem sends_operatorRoute {P : HttpMsg → Prop} {minimumRole : OperatorRole}
    {authorization : Option String} {body : OperatorIdentity → Http RouteResponse}
    (principal : P (.getOperatorPrincipal authorization)) (h : ∀ principal, (body principal).Sends P) :
    (operatorRoute minimumRole authorization body).Sends P := by
  refine .bind (.bind ((Prog.sends_send _).mpr principal) fun answer => ?_) fun answer => ?_
  · cases answer <;> trivial
  · cases answer with
    | error e => trivial
    | ok principal => exact h principal

open ApprovalRoutes OperatorRoutes in
/-- All routes but one list no audit events. -/
theorem sends_handler {P : HttpMsg → Prop} (hP : ∀ m : HttpMsg, ¬ m.ListsEvents → P m)
    {pydantic : Pydantic} {settings : RuntimeSettings} {authorization : Option String} {route : Route}
    (other : ∀ limit, route ≠ .listAuditEvents limit) :
    (route.handler pydantic settings authorization).Sends P := by
  have operator : ∀ {minimumRole : OperatorRole} {body : OperatorIdentity → Http RouteResponse},
      (∀ principal, (body principal).Sends P) →
      (operatorRoute minimumRole authorization body).Sends P :=
    fun h => sends_operatorRoute (hP _ id) h
  cases route with
  | handleStkCallback delivery => exact sends_httpCall (hP _ id) fun _ => trivial
  | listPendingApprovals => exact operator fun _ => sends_httpCall (hP _ id) fun _ => trivial
  | expireStaleApprovals => exact operator fun _ => sends_httpCall (hP _ id) fun _ => trivial
  | getApproval approvalId =>
    refine operator fun _ => sends_httpCall (hP _ id) fun answer => ?_
    cases answer <;> trivial
  | approvePaymentRequest approvalId =>
    exact operator fun _ => sends_httpCall (hP _ id) fun _ => trivial
  | rejectPaymentRequest approvalId =>
    exact operator fun _ => sends_httpCall (hP _ id) fun _ => trivial
  | listTransactions limit =>
    exact operator fun _ => sends_withLimit fun _ => sends_httpCall (hP _ id) fun _ => trivial
  | getTransaction transactionId =>
    refine operator fun _ => sends_httpCall (hP _ id) fun answer => ?_
    cases answer <;> trivial
  | listAuditEvents limit => exact absurd rfl (other limit)
  | getTodayAnalytics => exact operator fun _ => sends_httpCall (hP _ id) fun _ => trivial
  | getSystemStatus => exact operator fun _ => trivial
  | getReceipt reference => exact operator fun _ => sends_httpCall (hP _ id) fun _ => trivial
  | runReconciliation => exact operator fun _ => sends_httpCall (hP _ id) fun _ => trivial
  | health => trivial
  | metrics => exact sends_httpCall (hP _ id) fun _ => trivial

/-- From states that differ in drawn ids a route answers alike, whatever ids it runs under. -/
def AnswersAlike (route : Http RouteResponse) : Prop :=
  ∀ (id id' : String) (s t : ServerWorld τ π ρ), s.Alike t →
    (Prog.run (handleHttp surroundings server id) route s).1.map RouteResponse.withoutIds =
        (Prog.run (handleHttp surroundings server id') route t).1.map RouteResponse.withoutIds ∧
      (Prog.run (handleHttp surroundings server id) route s).2.Alike
        (Prog.run (handleHttp surroundings server id') route t).2

namespace AnswersAlike

/-- A route that lists no events answers alike in worlds that are alike. -/
theorem of_sends {route : Http RouteResponse} (sends : route.Sends fun m => ¬ m.ListsEvents) :
    AnswersAlike surroundings server route := by
  intro id id' s t h
  obtain ⟨hanswer, hafter⟩ := ServerWorld.Alike.route surroundings server sends h id id'
  exact ⟨congrArg (Except.map RouteResponse.withoutIds) hanswer, hafter⟩

/-- A part that lists no events may come before a route that answers alike: it answers alike itself,
and leaves worlds that are alike. -/
theorem bind {α : Type} {p : Http α} {route : α → Http RouteResponse}
    (sends : p.Sends fun m => ¬ m.ListsEvents)
    (h : ∀ a, AnswersAlike surroundings server (route a)) :
    AnswersAlike surroundings server (p >>= route) := by
  intro id id' s t hst
  obtain ⟨hanswer, hafter⟩ := ServerWorld.Alike.route surroundings server sends hst id id'
  cases hr : Prog.run (handleHttp surroundings server id) p s with
  | mk answer s' =>
  cases hr' : Prog.run (handleHttp surroundings server id') p t with
  | mk answer' t' =>
  rw [hr, hr'] at hanswer hafter
  cases hanswer
  simp only [Prog.run_bind, hr, hr']
  cases answer with
  | error e => exact ⟨rfl, hafter⟩
  | ok a => exact h a id id' s' t' hafter

/-- A list of audit events is answered alike, but for the ids. -/
theorem listAuditEvents (authorization limit : Option String) :
    AnswersAlike surroundings server
      (OperatorRoutes.listAuditEvents surroundings.pydantic authorization limit) := by
  refine bind surroundings server ?_ fun answer => ?_
  · refine .bind ((Prog.sends_send _).mpr ?_) fun answer => ?_
    · intro h
      exact h
    · cases answer <;> trivial
  · cases answer with
    | error e => exact of_sends surroundings server trivial
    | ok principal =>
      show AnswersAlike surroundings server (withLimit surroundings.pydantic limit _)
      unfold withLimit
      split
      next => exact of_sends surroundings server trivial
      next limit _ =>
        intro id id' s t h
        have hevents := h.listRecentEvents limit
        have hsummaries : ∀ rows : List AuditEventRow,
            (rows.map AuditEventRow.operatorSummary).map (fun event =>
                { event with eventId := "", correlationId := none }) =
              (rows.map AuditEventRow.withoutIds).map AuditEventRow.operatorSummary := by
          intro rows
          simp only [List.map_map]
          rfl
        simp only [Prog.run_bind, Http.run_call, handleHttp, Prog.run_pure]
        refine ⟨?_, h⟩
        simp only [Except.map, RouteResponse.withoutIds, HttpBody.withoutIds, hsummaries, hevents]

/-- Every route answers alike, by its constructor. -/
theorem handler (authorization : Option String) (route : Route) :
    AnswersAlike surroundings server
      (route.handler surroundings.pydantic server.runtimeSettings authorization) := by
  by_cases hlist : ∃ limit, route = .listAuditEvents limit
  · obtain ⟨limit, rfl⟩ := hlist
    exact listAuditEvents surroundings server authorization limit
  · exact of_sends surroundings server (sends_handler (fun _ => id) fun limit h => hlist ⟨limit, h⟩)

/-- An exception that is answered is answered alike. -/
theorem answered {route : Http RouteResponse} (h : AnswersAlike surroundings server route) :
    AnswersAlike surroundings server (MpesaMcp.answered route) := by
  intro id id' s t hst
  obtain ⟨hanswer, hafter⟩ := h id id' s t hst
  cases hr : Prog.run (handleHttp surroundings server id) route s with
  | mk answer s' =>
  cases hr' : Prog.run (handleHttp surroundings server id') route t with
  | mk answer' t' =>
  rw [hr, hr'] at hanswer hafter
  simp only [MpesaMcp.answered, Prog.run_bind, Prog.run_attempt, hr, hr']
  cases answer with
  | ok response =>
    cases answer' with
    | error e => cases hanswer
    | ok response' => exact ⟨hanswer, hafter⟩
  | error e =>
    cases answer' with
    | ok response' => cases hanswer
    | error e' =>
      cases hanswer
      cases e <;> exact ⟨rfl, hafter⟩

end AnswersAlike

/-! ## Steps and runs -/

section Runs

variable {s t : ServerWorld τ π ρ}

/-- A correlation id is drawn without a look at the clock. -/
theorem correlationContext_clockReads (env : Env) (active correlationId : Option String) (a : Ambient) :
    (correlationContext env active correlationId a).2.clockReads = a.clockReads := by
  unfold correlationContext normalizeCorrelationId
  split
  next => rfl
  next =>
    split
    next => rfl
    next => split_ifs <;> rfl

/-- Every input is answered alike in two such states, and leaves two such states: by the routes and the
tools, each of which sees the application and the limiter but not the ids drawn for the log. -/
theorem ServerWorld.Alike.step (h : s.Alike t) (input : ServerInput) :
    (serverStep surroundings server input s).1.withoutIds =
        (serverStep surroundings server input t).1.withoutIds ∧
      (serverStep surroundings server input s).2.Alike (serverStep surroundings server input t).2 := by
  cases input with
  | tool call =>
    have hcontext := h.drawn
      (correlationContext_clockReads surroundings.web none none s.logging)
      (correlationContext_clockReads surroundings.web none none t.logging)
    obtain ⟨hanswer, hafter⟩ := hcontext.tool surroundings server
      (correlationContext surroundings.web none none s.logging).1
      (correlationContext surroundings.web none none t.logging).1
      (createToolHandlers surroundings.pydantic server.toMcpDependencies call)
    exact ⟨congrArg ServerOutput.tool hanswer, hafter⟩
  | request sent =>
    have hcontext := h.drawn
      (correlationContext_clockReads surroundings.web none sent.correlationId s.logging)
      (correlationContext_clockReads surroundings.web none sent.correlationId t.logging)
    have halike := ((AnswersAlike.handler surroundings server sent.authorization
      sent.route).answered surroundings server)
        (correlationContext surroundings.web none sent.correlationId s.logging).1
        (correlationContext surroundings.web none sent.correlationId t.logging).1 _ _ hcontext
    obtain ⟨hanswer, hafter⟩ := halike
    simp only [serverStep, handleRequest]
    revert hanswer hafter
    generalize Prog.run (MpesaMcp.handleHttp surroundings server
      (correlationContext surroundings.web none sent.correlationId s.logging).1)
      (MpesaMcp.answered (sent.route.handler surroundings.pydantic server.runtimeSettings
        sent.authorization)) _ = r
    generalize Prog.run (MpesaMcp.handleHttp surroundings server
      (correlationContext surroundings.web none sent.correlationId t.logging).1)
      (MpesaMcp.answered (sent.route.handler surroundings.pydantic server.runtimeSettings
        sent.authorization)) _ = r'
    obtain ⟨answer, s'⟩ := r
    obtain ⟨answer', t'⟩ := r'
    intro hanswer hafter
    cases answer with
    | ok response =>
      cases answer' with
      | error e => cases hanswer
      | ok response' =>
        have hresponse : response.withoutIds = response'.withoutIds := Except.ok.inj hanswer
        refine ⟨?_, hafter⟩
        simp only [ServerOutput.withoutIds, hresponse, Option.map_some]
    | error e =>
      cases answer' with
      | ok response' => cases hanswer
      | error e' => exact ⟨rfl, hafter⟩

end Runs

/-- **Refused requests do not interfere.** Where operators are authenticated without a network, a run
with the refused requests left out ends in the same state, with the same audit events but for their ids,
and answers every other request and every tool call alike, but for the ids that are drawn. -/
theorem refused_noninterfering (surroundings : Surroundings) (server : Server τ π ρ)
    (locally : AuthenticatesLocally server.runtimeSettings) (inputs : List ServerInput)
    (w : ServerWorld τ π ρ) :
    let admitted := fun input : ServerInput => !input.refused surroundings server
    let whole := final (serverStep surroundings server) w inputs
    let pruned := final (serverStep surroundings server) w (inputs.filter admitted)
    whole.Alike pruned ∧
      ((trace (serverStep surroundings server) w inputs).filter fun st => admitted st.input).map
          (fun st => st.output.withoutIds) =
        (trace (serverStep surroundings server) w (inputs.filter admitted)).map
          fun st => st.output.withoutIds := by
  intro admitted whole pruned
  have hself : w.Alike w := ⟨⟨rfl, rfl, rfl⟩, rfl, rfl⟩
  have hrefused : ∀ (input : ServerInput) (s t : ServerWorld τ π ρ), admitted input = false →
      s.Alike t → (serverStep surroundings server input s).2.Alike t := by
    intro input s t hrefused h
    cases input with
    | tool call => cases hrefused
    | request sent =>
      have hrefused : sent.refused surroundings server = true := by
        simpa [admitted, ServerInput.refused] using hrefused
      have hstep := handleRequest_refused surroundings server locally hrefused s
      simp only [serverStep, hstep]
      exact h.drawn
        (correlationContext_clockReads surroundings.web none sent.correlationId s.logging) rfl
  obtain ⟨houtputs, hfinal⟩ := unwinding_by (f := ServerOutput.withoutIds)
    (R := fun _ => ServerWorld.Alike)
    (fun input _ s t (_ : admitted input = true) h => h.step surroundings server input)
    (fun input _ s t => hrefused input s t) inputs hself
  exact ⟨hfinal, houtputs⟩

/-- The payment of two reviews, with a guessed token between the filing and the reviews. -/
def guessedApproval : List ServerInput :=
  dualApproval.take 1 ++
    .request { route := .approvePaymentRequest "1", authorization := some "Bearer guess" } ::
      dualApproval.drop 1

/-- The guess is no review. -/
theorem refused_noninterfering_guess :
    let w : ServerWorld Transactions Unit RateWindows := .start Keyed.empty () Keyed.empty
    (final (serverStep stillSurroundings tokenServer) w guessedApproval).Alike
      (final (serverStep stillSurroundings tokenServer) w dualApproval) := by
  intro w
  have hlocal : AuthenticatesLocally tokenServer.runtimeSettings := Or.inr (by decide)
  have hrefused : guessedApproval.map (ServerInput.refused stillSurroundings tokenServer) =
      [false, true, false, false] := by
    decide +kernel
  have hadmitted : guessedApproval.filter (fun input =>
      !input.refused stillSurroundings tokenServer) = dualApproval := by
    simp only [guessedApproval, dualApproval, List.take, List.drop, List.cons_append, List.nil_append,
      List.map_cons, List.cons.injEq] at hrefused ⊢
    obtain ⟨h₁, h₂, h₃, h₄, -⟩ := hrefused
    simp only [List.filter_cons, h₁, h₂, h₃, h₄, Bool.not_true, Bool.not_false, Bool.false_eq_true,
      if_true, if_false, List.filter_nil]
  have hwhole := (refused_noninterfering stillSurroundings tokenServer hlocal guessedApproval w).1
  rwa [hadmitted] at hwhole

end MpesaMcp
