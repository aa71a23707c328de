import MpesaMcp.App.Server
import MpesaMcp.Laws.McpClients
import Mathlib.Logic.Relation

/-!
# What the server has the application do

`ServerInput.Does` says which operations of the application an input may lead to, with which arguments:
a route of an operator leads to none where `require_approver` refuses the request. `serverStep_drives`
is the inversion lemma of `serverStep`: whatever the input, the application behind the server takes
such operations, reads, or has its clocks read, and nothing else.
-/

set_option autoImplicit false

namespace MpesaMcp

open Library Python

variable {τ π ρ : Type}

/-! ## Reading -/

/-- A message that reads the stores of the container, or records what was done. -/
def Msg.ReadsOnly : Msg → Prop
  | .approvals (.get _) => True
  | .transactions (.getTransaction _) => True
  | .transactions (.listRecentTransactions _) => True
  | m => m.OfReading

theorem Msg.OfReading.readsOnly {m : Msg} (h : m.OfReading) : m.ReadsOnly := by
  unfold Msg.ReadsOnly
  split
  next => trivial
  next => trivial
  next => trivial
  next => exact h

theorem Msg.ReadsOnly.sparesProvider {m : Msg} (h : m.ReadsOnly) : m.SparesProvider := by
  unfold Msg.ReadsOnly at h
  split at h
  next => trivial
  next => trivial
  next => trivial
  next => exact h.sparesProvider

section Application

variable {env : Env} {container : AppContainer τ π}

/-- What only reads leaves the approvals alone. -/
theorem handle_approvals_of_reads {m : Msg} (h : m.ReadsOnly) (w : World τ π) :
    (handle env container m w).2.approvals = w.approvals := by
  unfold Msg.ReadsOnly at h
  split at h
  next => rfl
  next => rfl
  next => rfl
  next => exact handle_approvals env container h.sparesApprovals w

/-- What the application does while the server handles an input: it takes operations, it reads, and its
clocks are read. -/
inductive Did (env : Env) (container : AppContainer τ π) (does : Op → Prop) :
    World τ π → World τ π → Prop
  | clock {w : World τ π} {a : Ambient} (forward : w.ambient.Forward a) :
      Did env container does w { w with ambient := a }
  | reads {w : World τ π} {α : Type} {p : App α} (sends : p.Sends Msg.ReadsOnly) :
      Did env container does w (Prog.run (handle env container) p w).2
  | takes {w : World τ π} {op : Op} (h : does op) :
      Did env container does w (step env container op w).2

/-- One after another. -/
abbrev Drives (env : Env) (container : AppContainer τ π) (does : Op → Prop) :
    World τ π → World τ π → Prop :=
  Relation.ReflTransGen (Did env container does)

/-- What the clocks, reading and every operation keep, the application keeps: the run rule of
everything that an input drives, from which the invariants of the server follow. -/
theorem Drives.kept {does : Op → Prop} {I : World τ π → Prop}
    (clock : ∀ w (a : Ambient), w.ambient.Forward a → I w → I { w with ambient := a })
    (reads : ∀ (m : Msg) (w : World τ π), m.ReadsOnly → I w → I (handle env container m w).2)
    (takes : ∀ op, does op → ∀ w, I w → I (step env container op w).2)
    {w w' : World τ π} (drives : Drives env container does w w') (h : I w) : I w' := by
  induction drives with
  | refl => exact h
  | tail _ did ih =>
    cases did with
    | clock forward => exact clock _ _ forward ih
    | reads sends => exact Prog.run_kept (I := I) (fun m hm s => reads m s hm) sends ih
    | takes hdoes => exact takes _ hdoes _ ih

/-- What is driven by some operations is driven by more. -/
theorem Drives.mono {does does' : Op → Prop} (le : ∀ op, does op → does' op) {w w' : World τ π}
    (drives : Drives env container does w w') : Drives env container does' w w' := by
  induction drives with
  | refl => exact .refl
  | tail _ did ih =>
    refine ih.tail ?_
    cases did with
    | clock forward => exact .clock forward
    | reads sends => exact .reads sends
    | takes h => exact .takes (le _ h)

/-- The clocks of the application only move on. -/
theorem Drives.forward {does : Op → Prop} {w w' : World τ π}
    (drives : Drives env container does w w') : w.ambient.Forward w'.ambient := by
  refine drives.kept (I := fun v : World τ π => w.ambient.Forward v.ambient) ?_ ?_ ?_ (.refl _)
  · intro v a forward h
    exact h.trans forward
  · intro m v _ h
    exact h.trans (handle_forward env container m v)
  · intro op _ v h
    exact h.trans (run_forward env container _ v)

end Application

/-! ## A service, audited -/

variable (surroundings : Surroundings) (server : Server τ π ρ)

/-- An audited run does to the application what a run does, and answers alike. -/
theorem run_audited {α : Type} (env web : Env) (container : AppContainer τ π) (correlationId : String)
    (p : App α) (w : AuditedWorld τ π) :
    (Prog.run (handleAudited container env web correlationId) p w).1 =
        (Prog.run (handle env container) p w.app).1 ∧
      (Prog.run (handleAudited container env web correlationId) p w).2.app =
        (Prog.run (handle env container) p w.app).2 := by
  have hstep : ∀ m : Msg, True → ∀ (s : AuditedWorld τ π) (t : World τ π), s.app = t →
      (handleAudited container env web correlationId m s).1 = (handle env container m t).1 ∧
      (handleAudited container env web correlationId m s).2.app = (handle env container m t).2 := by
    rintro m - s t rfl
    cases m <;> exact ⟨rfl, rfl⟩
  exact Prog.run_simulates hstep (Prog.sends_true p) rfl

/-- A method that a route or tool serves is run on the application as it is; auditing adds rows and
nothing else. -/
theorem serve_app {α : Type} (correlationId : String) (method : App α) (w : ServerWorld τ π ρ) :
    (server.serve surroundings correlationId method w).2.app =
      (Prog.run (handle surroundings.env server.toAppContainer) method w.app).2 :=
  (run_audited surroundings.env surroundings.web server.toAppContainer correlationId method
    w.toAuditedWorld).2

/-- A method that a route or tool serves is answered with what it returns or raises. -/
theorem serve_answer {α : Type} (correlationId : String) (method : App α) (w : ServerWorld τ π ρ) :
    (server.serve surroundings correlationId method w).1 =
      (Prog.run (handle surroundings.env server.toAppContainer) method w.app).1 :=
  (run_audited surroundings.env surroundings.web server.toAppContainer correlationId method
    w.toAuditedWorld).1

/-- A served method is the operation it is the program of. -/
theorem serve_step (op : Op) {α : Type} {method : App α} {reply : α → Reply} (correlationId : String)
    (program_eq : program server.toAppContainer surroundings.env.toRuntime op = reply <$> method)
    (w : ServerWorld τ π ρ) :
    (server.serve surroundings correlationId method w).2.app =
      (step surroundings.env server.toAppContainer op w.app).2 := by
  rw [serve_app, step, program_eq, Prog.run_map]

/-! ## Tools -/

/-- The operations that a tool call may lead to. -/
def ToolCall.Does : ToolCall → Op → Prop
  | .initiateStkPush .., .initiateStkPush _ => True
  | .initiatePayment .., .initiateStkPush _ => True
  | .approvePaymentRequest _, .executeApprovedPayment _ operatorId => operatorId = "mcp_operator"
  | .rejectPaymentRequest _, .rejectRequest _ => True
  | _, _ => False

/-- What the application does for one message of a tool. -/
theorem handleTool_drives {call : ToolCall} (correlationId : String) {m : McpMsg}
    (may : call.MaySend m) (w : ServerWorld τ π ρ) :
    Drives surroundings.env server.toAppContainer call.Does w.app
      (handleTool surroundings server correlationId m w).2.app := by
  have reading : ∀ {α : Type} {method : App α}, method.Sends Msg.OfReading →
      Drives surroundings.env server.toAppContainer call.Does w.app
        (server.serve surroundings correlationId method w).2.app := by
    intro α method hsends
    rw [serve_app]
    exact .single (.reads (hsends.mono fun _ => Msg.OfReading.readsOnly))
  cases m with
  | allow key limit windowSeconds =>
    exact .single (.clock (server.rateLimiter.forward surroundings.env key limit windowSeconds
      w.app.ambient w.limiter))
  | initiateStkPush args =>
    have hdoes : call.Does (.initiateStkPush args) := by
      cases call <;> trivial
    simp only [handleTool]
    rw [serve_step surroundings server (.initiateStkPush args) correlationId rfl]
    exact .single (.takes hdoes)
  | checkTransactionStatus checkoutRequestId =>
    exact reading (sends_checkTransactionStatus server.transactionService checkoutRequestId)
  | generateReceipt checkoutRequestId =>
    exact reading (ReceiptService.sends_generateReceipt checkoutRequestId)
  | getTodaySummary => exact reading AnalyticsService.sends_getTodaySummary
  | getFailedTransactions => exact reading AnalyticsService.sends_getFailedTransactions
  | executeApprovedPayment approvalId operatorId =>
    have hdoes : call.Does (.executeApprovedPayment approvalId operatorId) := by
      cases call <;> exact may
    simp only [handleTool]
    rw [serve_step surroundings server (.executeApprovedPayment approvalId operatorId)
      correlationId rfl]
    exact .single (.takes hdoes)
  | rejectRequest approvalId =>
    have hdoes : call.Does (.rejectRequest approvalId) := by
      cases call <;> trivial
    simp only [handleTool]
    rw [serve_step surroundings server (.rejectRequest approvalId) correlationId rfl]
    exact .single (.takes hdoes)
  | runReconciliation => exact reading server.reconciliationService.sends_runReconciliation

/-- A tool call drives the operations of its tool, once policy, schema and rate limit let it through. -/
theorem callTool_drives (call : ToolCall) (w : ServerWorld τ π ρ) :
    Drives surroundings.env server.toAppContainer call.Does w.app
      (callTool surroundings server call w).2.app := by
  let context := correlationContext surroundings.web none none w.logging
  exact Prog.run_related (R := fun s s' : ServerWorld τ π ρ =>
      Drives surroundings.env server.toAppContainer call.Does s.app s'.app)
    (fun _ => .refl) (fun _ _ _ => .trans)
    (fun _ hm s => handleTool_drives surroundings server context.1 hm s)
    (sends_createToolHandlers surroundings.pydantic server.toMcpDependencies call)
    { w with logging := context.2 }

/-! ## Routes -/

/-- What the authorization header of a request resolves to. -/
def principalOf (authorization : Option String) (w : ServerWorld τ π ρ) :
    Except Exn (Except HttpException OperatorIdentity) :=
  (Prog.run (handleOidc surroundings.web surroundings.jwt surroundings.identityProvider)
    (getOperatorPrincipal server.runtimeSettings authorization) w.identities).1

/-- The header is of this operator, who has at least this role. -/
def Admits (minimumRole : OperatorRole) (authorization : Option String) (w : ServerWorld τ π ρ)
    (principal : OperatorIdentity) : Prop :=
  principalOf surroundings server authorization w = .ok (.ok principal) ∧
    minimumRole.level ≤ principal.role.level

/-- The operations that a request may lead to: those of the approval routes take an approver. -/
def RouteRequest.Does (w : ServerWorld τ π ρ) (request : RouteRequest) (op : Op) : Prop :=
  match request.route, op with
  | .handleStkCallback delivery, .postCallback delivery' => delivery' = delivery
  | .listPendingApprovals, .listPendingRequests =>
    ∃ principal, Admits surroundings server .approver request.authorization w principal
  | .expireStaleApprovals, .expireStaleApprovals =>
    ∃ principal, Admits surroundings server .approver request.authorization w principal
  | .approvePaymentRequest approvalId, .executeApprovedPayment approvalId' operatorId =>
    approvalId' = approvalId ∧ ∃ principal,
      Admits surroundings server .approver request.authorization w principal ∧
        operatorId = principal.operatorId
  | .rejectPaymentRequest approvalId, .rejectRequest approvalId' =>
    approvalId' = approvalId ∧ ∃ principal,
      Admits surroundings server .approver request.authorization w principal
  | _, _ => False

/-- The operation that a call of a route is, if any, is one of these. -/
def HttpMsg.LeadsTo (does : Op → Prop) : HttpMsg → Prop
  | .handleStkCallback request => does (.postCallback request)
  | .listPendingRequests => does .listPendingRequests
  | .expireStaleApprovals => does .expireStaleApprovals
  | .executeApprovedPayment approvalId operatorId =>
    does (.executeApprovedPayment approvalId operatorId)
  | .rejectRequest approvalId => does (.rejectRequest approvalId)
  | _ => True

/-- What the application does for one message of a route. -/
theorem handleHttp_drives {does : Op → Prop} (correlationId : String) {m : HttpMsg}
    (leads : m.LeadsTo does) (w : ServerWorld τ π ρ) :
    Drives surroundings.env server.toAppContainer does w.app
      (handleHttp surroundings server correlationId m w).2.app := by
  have reading : ∀ {α : Type} {method : App α}, method.Sends Msg.ReadsOnly →
      Drives surroundings.env server.toAppContainer does w.app
        (server.serve surroundings correlationId method w).2.app := by
    intro α method hsends
    rw [serve_app]
    exact .single (.reads hsends)
  have taking : ∀ (op : Op) {α : Type} {method : App α} {reply : α → Reply}, does op →
      program server.toAppContainer surroundings.env.toRuntime op = reply <$> method →
      Drives surroundings.env server.toAppContainer does w.app
        (server.serve surroundings correlationId method w).2.app := by
    intro op α method reply hdoes hprogram
    rw [serve_step surroundings server op correlationId hprogram]
    exact .single (.takes hdoes)
  cases m with
  | getOperatorPrincipal authorization => exact .refl
  | handleStkCallback request => exact taking (.postCallback request) leads rfl
  | listPendingRequests => exact taking .listPendingRequests leads rfl
  | expireStaleApprovals => exact taking .expireStaleApprovals leads rfl
  | getApprovalRequest approvalId => exact reading ((sends_ask _).mpr trivial)
  | executeApprovedPayment approvalId operatorId =>
    exact taking (.executeApprovedPayment approvalId operatorId) leads rfl
  | rejectRequest approvalId => exact taking (.rejectRequest approvalId) leads rfl
  | listRecentTransactions limit => exact reading ((sends_ask _).mpr trivial)
  | getTransaction transactionId => exact reading ((sends_ask _).mpr trivial)
  | listRecentEvents limit => exact .refl
  | getTodaySummary =>
    exact reading (AnalyticsService.sends_getTodaySummary.mono fun _ => Msg.OfReading.readsOnly)
  | generateReceiptByReference reference =>
    exact reading ((ReceiptService.sends_generateReceiptByReference reference).mono
      fun _ => Msg.OfReading.readsOnly)
  | runReconciliation =>
    exact reading (server.reconciliationService.sends_runReconciliation.mono
      fun _ => Msg.OfReading.readsOnly)
  | snapshot => exact .refl

/-- A route after its authentication. -/
theorem route_drives {does : Op → Prop} {α : Type} (correlationId : String) {route : Http α}
    (sends : route.Sends (HttpMsg.LeadsTo does)) (w : ServerWorld τ π ρ) :
    Drives surroundings.env server.toAppContainer does w.app
      (Prog.run (handleHttp surroundings server correlationId) route w).2.app :=
  Prog.run_related (R := fun s s' : ServerWorld τ π ρ =>
      Drives surroundings.env server.toAppContainer does s.app s'.app)
    (fun _ => .refl) (fun _ _ _ => .trans)
    (fun _ hm s => handleHttp_drives surroundings server correlationId hm s) sends w

/-- Someone is admitted where the level of the principal is enough. -/
theorem exists_admits {minimumRole : OperatorRole} {authorization : Option String}
    {w : ServerWorld τ π ρ}
    (level : ((principalOf surroundings server authorization w).toOption.bind fun answer =>
      answer.toOption.map fun principal => decide (minimumRole.level ≤ principal.role.level)) =
        some true) :
    ∃ principal, Admits surroundings server minimumRole authorization w principal := by
  obtain ⟨answer, hanswer, hlevel⟩ := Option.bind_eq_some_iff.mp level
  obtain ⟨principal, hprincipal, hlevel⟩ := Option.map_eq_some_iff.mp hlevel
  refine ⟨principal, ?_, of_decide_eq_true hlevel⟩
  cases hresolved : principalOf surroundings server authorization w with
  | error e =>
    rw [hresolved] at hanswer
    cases hanswer
  | ok resolved =>
    rw [hresolved] at hanswer
    cases hanswer
    cases answer with
    | error e => cases hprincipal
    | ok _ =>
      cases hprincipal
      rfl

/-- The state of the server once it has resolved the header of a request. -/
def ServerWorld.authenticated (authorization : Option String) (w : ServerWorld τ π ρ) :
    ServerWorld τ π ρ :=
  { w with identities := (Prog.run (handleOidc surroundings.web surroundings.jwt
      surroundings.identityProvider)
    (getOperatorPrincipal server.runtimeSettings authorization) w.identities).2 }

/-- A header that resolves to no operator is answered with the one error. -/
theorem principalOf_refused {authorization : Option String} {w : ServerWorld τ π ρ} {e : HttpException}
    (h : principalOf surroundings server authorization w = .ok (.error e)) : e = unauthorized := by
  simp only [principalOf, getOperatorPrincipal] at h
  split at h
  next => cases h
  next =>
    split at h
    next =>
      cases h
      rfl
    next token htoken =>
      rw [Prog.run_bind] at h
      split at h
      next provider w₁ hprovider =>
        rw [Prog.run_bind] at h
        split at h
        next identity w₂ hidentity =>
          cases identity with
          | none =>
            cases h
            rfl
          | some identity => cases h
        next => cases h
      next => cases h

/-- **The inversion lemma of an operator's route**: it is refused, or it runs for an operator of the role
it requires. -/
theorem operatorRoute_cases (correlationId : String) (minimumRole : OperatorRole)
    (authorization : Option String) (route : OperatorIdentity → Http RouteResponse)
    (w : ServerWorld τ π ρ) :
    let r := Prog.run (handleHttp surroundings server correlationId)
      (operatorRoute minimumRole authorization route) w
    (∃ e, principalOf surroundings server authorization w = .error e ∧
        r = (.error e, w.authenticated surroundings server authorization)) ∨
      (∃ e : HttpException, (e.statusCode = 401 ∨ e.statusCode = 403) ∧
        r = (.ok e.response, w.authenticated surroundings server authorization)) ∨
      ∃ principal, Admits surroundings server minimumRole authorization w principal ∧
        r = Prog.run (handleHttp surroundings server correlationId) (route principal)
          (w.authenticated surroundings server authorization) := by
  intro r
  have hcall : handleHttp surroundings server correlationId (.getOperatorPrincipal authorization) w =
      (principalOf surroundings server authorization w,
        w.authenticated surroundings server authorization) := rfl
  have hr : r = Prog.run (handleHttp surroundings server correlationId)
      (operatorRoute minimumRole authorization route) w := rfl
  simp only [operatorRoute, requireOperator, Prog.run_bind, Http.run_call, hcall] at hr
  cases hprincipal : principalOf surroundings server authorization w with
  | error e =>
    simp only [hprincipal] at hr
    exact Or.inl ⟨e, rfl, hr⟩
  | ok answer =>
    cases answer with
    | error e =>
      simp only [hprincipal, Prog.run_pure] at hr
      refine Or.inr (Or.inl ⟨e, Or.inl ?_, hr⟩)
      rw [principalOf_refused surroundings server hprincipal]
      rfl
    | ok principal =>
      simp only [hprincipal, Prog.run_pure, requireRole] at hr
      by_cases hlevel : minimumRole.level ≤ principal.role.level
      · simp only [if_pos hlevel] at hr
        exact Or.inr (Or.inr ⟨principal, ⟨hprincipal, hlevel⟩, hr⟩)
      · simp only [if_neg hlevel] at hr
        exact Or.inr (Or.inl ⟨_, Or.inr rfl, hr⟩)

/-- An operator with the required role is let in. -/
theorem operatorRoute_admitted (correlationId : String) {minimumRole : OperatorRole}
    {authorization : Option String} {w : ServerWorld τ π ρ} {principal : OperatorIdentity}
    (admits : Admits surroundings server minimumRole authorization w principal)
    (route : OperatorIdentity → Http RouteResponse) :
    Prog.run (handleHttp surroundings server correlationId)
        (operatorRoute minimumRole authorization route) w =
      Prog.run (handleHttp surroundings server correlationId) (route principal)
        (w.authenticated surroundings server authorization) := by
  obtain ⟨hprincipal, hlevel⟩ := admits
  have hcall : handleHttp surroundings server correlationId (.getOperatorPrincipal authorization) w =
      (principalOf surroundings server authorization w,
        w.authenticated surroundings server authorization) := rfl
  simp only [operatorRoute, requireOperator, Prog.run_bind, Http.run_call, hcall, hprincipal,
    Prog.run_pure, requireRole, if_pos hlevel]

/-- What a client receives of a route that answers an operator who is let in. -/
theorem handleRequest_admitted (request : RouteRequest) {minimumRole : OperatorRole}
    {principal : OperatorIdentity} {route : OperatorIdentity → Http RouteResponse}
    {response : RouteResponse} {w w' : ServerWorld τ π ρ}
    (handler : request.route.handler surroundings.pydantic server.runtimeSettings
      request.authorization = operatorRoute minimumRole request.authorization route)
    (admits : Admits surroundings server minimumRole request.authorization w principal) :
    let context := correlationContext surroundings.web none request.correlationId w.logging
    Prog.run (handleHttp surroundings server context.1) (route principal)
        (ServerWorld.authenticated surroundings server request.authorization
          { w with logging := context.2 }) = (.ok response, w') →
      handleRequest surroundings server request w = (⟨response, some context.1⟩, w') := by
  intro context hrun
  have hadmits : Admits surroundings server minimumRole request.authorization
      { w with logging := context.2 } principal := admits
  have hroute : Prog.run (handleHttp surroundings server context.1) (answered
      (request.route.handler surroundings.pydantic server.runtimeSettings request.authorization))
        { w with logging := context.2 } = (.ok response, w') := by
    rw [handler]
    simp only [answered, Prog.run_bind, Prog.run_attempt,
      operatorRoute_admitted surroundings server context.1 hadmits, hrun]
    rfl
  simp only [handleRequest]
  split
  next answer hok =>
    have hanswer := congrArg Prod.fst hroute
    cases hok.symm.trans hanswer
    exact congrArg (Prod.mk _) (congrArg Prod.snd hroute)
  next e herror => cases herror.symm.trans (congrArg Prod.fst hroute)

/-- A route of an operator, from what it sends for one who is admitted. -/
theorem operatorRoute_drives {does : Op → Prop} (correlationId : String) (minimumRole : OperatorRole)
    (authorization : Option String) {route : OperatorIdentity → Http RouteResponse}
    (w : ServerWorld τ π ρ)
    (sends : ∀ principal, Admits surroundings server minimumRole authorization w principal →
      (route principal).Sends (HttpMsg.LeadsTo does)) :
    Drives surroundings.env server.toAppContainer does w.app
      (Prog.run (handleHttp surroundings server correlationId)
        (operatorRoute minimumRole authorization route) w).2.app := by
  rcases operatorRoute_cases surroundings server correlationId minimumRole authorization route w with
    ⟨e, -, hr⟩ | ⟨e, -, hr⟩ | ⟨principal, hadmits, hr⟩
  · rw [hr]
    exact .refl
  · rw [hr]
    exact .refl
  · rw [hr]
    exact route_drives surroundings server correlationId (sends principal hadmits)
      (w.authenticated surroundings server authorization)

/-- One call of a route and an answer. -/
theorem sends_httpCall {P : HttpMsg → Prop} {α : Type} {m : HttpMsg} {f : m.Answer → Http α} (h : P m)
    (rest : ∀ answer, (f answer).Sends P) : (Http.call m >>= f).Sends P :=
  .bind ((Prog.sends_send m).mpr h) rest

/-- A bad limit is answered at once; a good one goes to the route. -/
theorem sends_withLimit {P : HttpMsg → Prop} {pydantic : Pydantic} {limit : Option String}
    {route : Int → Http RouteResponse} (h : ∀ limit, (route limit).Sends P) :
    (withLimit pydantic limit route).Sends P := by
  unfold withLimit
  split
  next => trivial
  next limit _ => exact h limit

open ApprovalRoutes OperatorRoutes in
/-- The program of a route, in any state. -/
theorem handler_drives (correlationId : String) (request : RouteRequest) (w : ServerWorld τ π ρ) :
    Drives surroundings.env server.toAppContainer (request.Does surroundings server w) w.app
      (Prog.run (handleHttp surroundings server correlationId)
        (request.route.handler surroundings.pydantic server.runtimeSettings request.authorization)
          w).2.app := by
  obtain ⟨route, authorization, header⟩ := request
  cases route with
  | handleStkCallback delivery =>
    refine route_drives surroundings server correlationId ?_ w
    exact sends_httpCall (m := .handleStkCallback delivery) rfl fun _ => trivial
  | listPendingApprovals =>
    refine operatorRoute_drives surroundings server correlationId _ _ w fun principal hadmits => ?_
    exact sends_httpCall ⟨principal, hadmits⟩ fun _ => trivial
  | expireStaleApprovals =>
    refine operatorRoute_drives surroundings server correlationId _ _ w fun principal hadmits => ?_
    exact sends_httpCall ⟨principal, hadmits⟩ fun _ => trivial
  | getApproval approvalId =>
    refine operatorRoute_drives surroundings server correlationId _ _ w fun principal hadmits => ?_
    refine sends_httpCall trivial fun answer => ?_
    cases answer <;> trivial
  | approvePaymentRequest approvalId =>
    refine operatorRoute_drives surroundings server correlationId _ _ w fun principal hadmits => ?_
    exact sends_httpCall ⟨rfl, principal, hadmits, rfl⟩ fun _ => trivial
  | rejectPaymentRequest approvalId =>
    refine operatorRoute_drives surroundings server correlationId _ _ w fun principal hadmits => ?_
    exact sends_httpCall ⟨rfl, principal, hadmits⟩ fun _ => trivial
  | listTransactions limit =>
    refine operatorRoute_drives surroundings server correlationId _ _ w fun principal hadmits => ?_
    exact sends_withLimit fun _ => sends_httpCall trivial fun _ => trivial
  | getTransaction transactionId =>
    refine operatorRoute_drives surroundings server correlationId _ _ w fun principal hadmits => ?_
    refine sends_httpCall trivial fun answer => ?_
    cases answer <;> trivial
  | listAuditEvents limit =>
    refine operatorRoute_drives surroundings server correlationId _ _ w fun principal hadmits => ?_
    exact sends_withLimit fun _ => sends_httpCall trivial fun _ => trivial
  | getTodayAnalytics =>
    refine operatorRoute_drives surroundings server correlationId _ _ w fun principal hadmits => ?_
    exact sends_httpCall trivial fun _ => trivial
  | getSystemStatus =>
    exact operatorRoute_drives surroundings server correlationId _ _ w fun principal hadmits => trivial
  | getReceipt reference =>
    refine operatorRoute_drives surroundings server correlationId _ _ w fun principal hadmits => ?_
    exact sends_httpCall trivial fun _ => trivial
  | runReconciliation =>
    refine operatorRoute_drives surroundings server correlationId _ _ w fun principal hadmits => ?_
    exact sends_httpCall trivial fun _ => trivial
  | health => exact .refl
  | metrics =>
    refine route_drives surroundings server correlationId ?_ w
    exact sends_httpCall (m := .snapshot) trivial fun _ => trivial

/-- To answer an exception changes nothing. -/
theorem run_answered {σ : Type} (h : Handler Exn HttpMsg.Answer σ) (route : Http RouteResponse)
    (s : σ) : (Prog.run h (answered route) s).2 = (Prog.run h route s).2 := by
  simp only [answered, Prog.run_bind, Prog.run_attempt]
  split <;> rfl

/-- A request drives the operations of its route, once the gate of the route lets it through. What
happens on the way, the authentication and the log, leaves the application alone. -/
theorem handleRequest_drives (request : RouteRequest) (w : ServerWorld τ π ρ) :
    Drives surroundings.env server.toAppContainer (request.Does surroundings server w) w.app
      (handleRequest surroundings server request w).2.app := by
  let context := correlationContext surroundings.web none request.correlationId w.logging
  have hdrives := handler_drives surroundings server context.1 request { w with logging := context.2 }
  rw [← run_answered] at hdrives
  simp only [handleRequest]
  split <;> exact hdrives

/-! ## Inputs -/

/-- The operations that an input may lead to. -/
def ServerInput.Does (w : ServerWorld τ π ρ) : ServerInput → Op → Prop
  | .request sent => sent.Does surroundings server w
  | .tool call => call.Does

/-- **The inversion lemma of `serverStep`** for the application. -/
theorem serverStep_drives (input : ServerInput) (w : ServerWorld τ π ρ) :
    Drives surroundings.env server.toAppContainer (input.Does surroundings server w) w.app
      (serverStep surroundings server input w).2.app := by
  cases input with
  | request request => exact handleRequest_drives surroundings server request w
  | tool call => exact callTool_drives surroundings server call w

end MpesaMcp
