import MpesaMcp.Laws.ReviewBurden
import MpesaMcp.Laws.StoredRequests

/-!
# Who stands behind a payment above the limit

Whatever requests and tool calls reach the server, in whatever order: a payment above the limit has a
request behind it that as many distinct operators reviewed as its amount takes. Each of them is
`mcp_operator`, who reviews through the tool, or was logged in as an approver in a request to approve
this very request (`large_payments_reviewed`). Where the configuration knows all operators by name,
amounts that take more reviewers than there are names are never paid (`payments_within_operators`).
-/

set_option autoImplicit false

namespace MpesaMcp

open Library Python PaymentService

variable {τ π ρ : Type}

/-! ## The application -/

section Application

variable {env : Env} {container : AppContainer τ π}

/-- The call is within the limit, or a decided request for it has all of its reviews. -/
def Backed (container : AppContainer τ π) (w : World τ π) (call : Initiation) : Prop :=
  call.request.amount ≤ container.settings.maxStkAmount ∨
    ∃ a key, StillDecided w.approvals a ∧ executablePayload a.payload = some (call.request, key) ∧
      max 1 a.requiredReviewers ≤ (a.reviewerIds.length : Int)

/-- A call of the provider stays backed: the request behind it was decided, and a decided request keeps
its payload and its reviewers, also where it is rejected afterwards. -/
theorem Backed.later {w w' : World τ π} {call : Initiation} (h : Backed container w call)
    (decided : ∀ a, StillDecided w.approvals a → StillDecided w'.approvals a) :
    Backed container w' call := by
  refine h.imp_right ?_
  rintro ⟨a, key, hdecided, hpayload, hquorum⟩
  exact ⟨a, key, decided a hdecided, hpayload, hquorum⟩

/-- One operation: a call that it makes is backed by the request that its own review approved, or is
small enough to need none. -/
theorem backed_step (op : Op) {w : World τ π} (drawn : AllDrawn env w)
    (h : ∀ call ∈ w.initiations, Backed container w call) :
    ∀ call ∈ (step env container op w).2.initiations,
      Backed container (step env container op w).2 call := by
  have old : ∀ call ∈ w.initiations, Backed container (step env container op w).2 call :=
    fun call hcall => (h call hcall).later fun a => decided_step op drawn
  have added : ∀ made : Initiation, Backed container (step env container op w).2 made →
      (step env container op w).2.initiations = w.initiations ++ [made] →
        ∀ call ∈ (step env container op w).2.initiations,
          Backed container (step env container op w).2 call := by
    intro made hmade happend call hcall
    rw [happend] at hcall
    rcases List.mem_append.mp hcall with hold | hnew
    · exact old call hold
    · rw [List.mem_singleton.mp hnew]
      exact hmade
  cases step_cases env container op w with
  | moved _ same =>
    rw [same]
    exact old
  | filed _ _ _ _ _ _ _ _ _ _ _ _ same _ =>
    rw [same]
    exact old
  | paid args _ request _ _ within _ made =>
    obtain ⟨made, rfl, happend⟩ := made
    exact added made (Or.inl within) happend
  | executed approvalId operatorId input a stored _ _ _ enough _ put made =>
    rcases made with same | ⟨made, key, payload, happend⟩
    · rw [same]
      exact old
    · let b := a.approvedBy operatorId (env.clock (w.ambient.clockReads + 2))
      have hstored : (step env container op w).2.approvals.get b.approvalId = some b := by
        rw [put]
        exact Keyed.get_put_self _ b
      have hlength : (b.reviewerIds.length : Int) = a.reviewerIds.length + 1 := by
        simp [b, ApprovalRequest.approvedBy, ApprovalRequest.reviewedBy]
      have hrequired : b.requiredReviewers = a.requiredReviewers := rfl
      have hdecided : StillDecided (step env container op w).2.approvals b :=
        .of_stored hstored (by simp [b, ApprovalRequest.approvedBy])
      refine added made (Or.inr ⟨b, key, hdecided, payload, ?_⟩) happend
      omega

/-- Whatever an input drives keeps every call of the provider backed, operation by operation. -/
theorem Drives.backed {does : Op → Prop} {w w' : World τ π} (drives : Drives env container does w w')
    (drawn : AllDrawn env w) (h : ∀ call ∈ w.initiations, Backed container w call) :
    ∀ call ∈ w'.initiations, Backed container w' call := by
  induction drives with
  | refl => exact h
  | @tail v v' before did ih =>
    have hdrawn : AllDrawn env v := Drives.drawn before drawn
    cases did with
    | clock forward => exact ih
    | @reads _ p sends =>
      intro call hcall
      rw [run_initiations env container (sends.mono fun _ => Msg.ReadsOnly.sparesProvider)] at hcall
      have hread : Drives env container does v (Prog.run (handle env container) p v).2 :=
        .single (.reads sends)
      exact (ih call hcall).later fun a => hread.stillDecided hdrawn
    | takes _ => exact backed_step _ hdrawn ih

end Application

/-! ## Reviews in a run of the server -/

variable (surroundings : Surroundings) (server : Server τ π ρ)

/-- The step reviews the request: over HTTP for an operator who is logged in as an approver, or for
`mcp_operator` through the tool. -/
def Reviews (st : ServerStep τ π ρ) (approvalId operatorId : String) : Prop :=
  match st.input with
  | .request sent => sent.route = .approvePaymentRequest approvalId ∧ ∃ principal,
      Admits surroundings server .approver sent.authorization st.before principal ∧
        operatorId = principal.operatorId
  | .tool call => (∃ id, call = .approvePaymentRequest id) ∧ operatorId = "mcp_operator"

/-- No input leads to another review. -/
theorem does_reviews (st : ServerStep τ π ρ) {approvalId operatorId : String} {op : Op}
    (does : st.input.Does surroundings server st.before op) (review : op.ReviewOf approvalId operatorId) :
    Reviews surroundings server st approvalId operatorId := by
  obtain ⟨before, input, output, after⟩ := st
  rcases review with rfl | rfl
  · cases input with
    | request sent =>
      obtain ⟨route, authorization, header⟩ := sent
      cases route with
      | approvePaymentRequest id =>
        obtain ⟨rfl, principal, hadmits, hoperator⟩ := does
        exact ⟨rfl, principal, hadmits, hoperator⟩
      | _ => exact absurd does id
    | tool call =>
      cases call with
      | approvePaymentRequest id => exact ⟨⟨id, rfl⟩, does⟩
      | _ => exact absurd does id
  · cases input with
    | request sent =>
      obtain ⟨route, authorization, header⟩ := sent
      cases route <;> exact absurd does id
    | tool call => cases call <;> exact absurd does id

/-- A stored request requires what its payload does, and each of its reviewers reviewed it in an earlier
step. -/
structure DulyReviewed (history : List (ServerStep τ π ρ)) (a : ApprovalRequest) : Prop where
  required : a.requiredReviewers = server.approvalService.requiredReviewersForPayload a.payload
  distinct : a.reviewerIds.Nodup
  reviewed : ∀ operatorId ∈ a.reviewerIds, ∃ st ∈ history,
    Reviews surroundings server st a.approvalId operatorId

/-- More history does not undo a review. -/
theorem DulyReviewed.mono {history history' : List (ServerStep τ π ρ)} (sub : history ⊆ history')
    {a : ApprovalRequest} (h : DulyReviewed surroundings server history a) :
    DulyReviewed surroundings server history' a := by
  refine ⟨h.required, h.distinct, fun operatorId hmem => ?_⟩
  obtain ⟨st, hst, hreviews⟩ := h.reviewed operatorId hmem
  exact ⟨st, sub hst, hreviews⟩

/-- A filing gives it, and a review of the history keeps it. -/
theorem dulyReviewed_kept (history : List (ServerStep τ π ρ)) :
    KeptByReviews server.approvalService
      (fun approvalId operatorId => ∃ st ∈ history, Reviews surroundings server st approvalId operatorId)
      (DulyReviewed surroundings server history) where
  filed args approvalId now required := by
    refine ⟨required, List.nodup_nil, ?_⟩
    intro operatorId hmem
    cases hmem
  withStatus a status now h := by
    refine ⟨?_, ?_, ?_⟩
    · simpa using h.required
    · simpa using h.distinct
    · simpa using h.reviewed
  reviewedBy a operatorId now review unseen h := by
    refine ⟨h.required, ?_, ?_⟩
    · exact h.distinct.append (List.nodup_singleton operatorId) (by simpa using unseen)
    · intro other hother
      rcases List.mem_append.mp hother with hold | hnew
      · exact h.reviewed other hold
      · rw [List.mem_singleton.mp hnew]
        exact review
  approvedBy a operatorId now review unseen h := by
    refine ⟨h.required, ?_, ?_⟩
    · exact h.distinct.append (List.nodup_singleton operatorId) (by simpa using unseen)
    · intro other hother
      rcases List.mem_append.mp hother with hold | hnew
      · exact h.reviewed other hold
      · rw [List.mem_singleton.mp hnew]
        exact review

/-- What holds along a run of the server. -/
structure DutiesKept (history : List (ServerStep τ π ρ)) (w : ServerWorld τ π ρ) : Prop where
  drawn : AllDrawn surroundings.env w.app
  stored : Stored (DulyReviewed surroundings server history) w.app.approvals
  calls : ∀ call ∈ w.app.initiations, Backed server.toAppContainer w.app call

/-- One input of the server: a review that it makes is traced to this input, whose gate authenticated
the operator, and every stored request keeps the reviews it had. -/
theorem DutiesKept.step {history : List (ServerStep τ π ρ)} {w : ServerWorld τ π ρ}
    (h : DutiesKept surroundings server history w) (input : ServerInput) :
    DutiesKept surroundings server
      (history ++ [stepAt (serverStep surroundings server) w input])
      (serverStep surroundings server input w).2 := by
  have hdrives := serverStep_drives surroundings server input w
  refine ⟨hdrives.drawn h.drawn, ?_, hdrives.backed h.drawn h.calls⟩
  refine hdrives.stored (dulyReviewed_kept surroundings server _) ?_ fun approvalId a ha => ?_
  · intro approvalId operatorId op hdoes hreview
    exact ⟨stepAt (serverStep surroundings server) w input, by simp,
      does_reviews surroundings server (stepAt (serverStep surroundings server) w input) hdoes
        hreview⟩
  · exact (h.stored approvalId a ha).mono surroundings server (List.subset_append_left _ _)

/-- Every run keeps the duties, by its step and induction on the inputs: the reviews of a stored
request are the authenticated steps of the history that made them. -/
theorem dutiesKept_run (transactions : τ) (provider : π) (limiter : ρ) (inputs : List ServerInput) :
    let w := ServerWorld.start transactions provider limiter
    DutiesKept surroundings server (trace (serverStep surroundings server) w inputs)
      (final (serverStep surroundings server) w inputs) := by
  refine invariant ?_ (fun _ _ input h => h.step surroundings server input) inputs
  refine ⟨?_, ?_, ?_⟩
  · intro approvalId a ha
    cases ha
  · intro approvalId a ha
    cases ha
  · intro call hcall
    cases hcall

/-- A request that was reviewed for a payment, by the operators its amount takes. -/
structure ReviewedFor (history : List (ServerStep τ π ρ)) (approvals : Approvals)
    (request : InitiatePayment) (a : ApprovalRequest) : Prop where
  stored : approvals.get a.approvalId = some a
  decided : a.status ≠ .pending
  payload : ∃ key, executablePayload a.payload = some (request, key)
  distinct : a.reviewerIds.Nodup
  quorum : max 1 (server.approvalService.reviewersFor request.amount) ≤ (a.reviewerIds.length : Int)
  reviewed : ∀ operatorId ∈ a.reviewerIds, ∃ st ∈ history,
    Reviews surroundings server st a.approvalId operatorId

/-- The request behind a call above the limit: its reviewers are distinct, as many as the rules ask
for, and each is traced to a step that authenticated him. -/
theorem DutiesKept.reviewedFor {history : List (ServerStep τ π ρ)} {w : ServerWorld τ π ρ}
    (hduties : DutiesKept surroundings server history w) {call : Initiation}
    (hcall : call ∈ w.app.initiations) (above : server.settings.maxStkAmount < call.request.amount) :
    ∃ a, ReviewedFor surroundings server history w.app.approvals call.request a := by
  rcases hduties.calls call hcall with hwithin | ⟨a, key, ⟨b, hb, hdecided, hpayload, hreviewers,
    hrequired⟩, hexecutable, hquorum⟩
  · exact absurd above (Int.not_lt.mpr hwithin)
  · have hduty := hduties.stored _ b hb
    have hbpayload : executablePayload b.payload = some (call.request, key) := hpayload ▸ hexecutable
    refine ⟨b, (Keyed.key_of_get hb).symm ▸ hb, hdecided, ⟨key, hbpayload⟩, hduty.distinct, ?_,
      hduty.reviewed⟩
    have hamount : b.requiredReviewers = server.approvalService.reviewersFor call.request.amount := by
      rw [hduty.required, ApprovalService.requiredReviewersForPayload,
        executablePayload_amount hbpayload]
      rfl
    rw [← hamount, hrequired, hreviewers]
    exact hquorum

/-- **Separation of duties**: in every run of the server, over both of its interfaces, a call of the
provider above the limit has a stored request for exactly this payment behind it, which as many distinct
operators reviewed as the amount takes. Each review was made through the tool as `mcp_operator`, or in a
request of an operator who was logged in as an approver at least. -/
theorem large_payments_reviewed (transactions : τ) (provider : π) (limiter : ρ)
    (inputs : List ServerInput) :
    let w := ServerWorld.start transactions provider limiter
    ∀ call ∈ (final (serverStep surroundings server) w inputs).app.initiations,
      server.settings.maxStkAmount < call.request.amount →
        ∃ a, ReviewedFor surroundings server (trace (serverStep surroundings server) w inputs)
          (final (serverStep surroundings server) w inputs).app.approvals call.request a := by
  intro w call hcall above
  exact (dutiesKept_run surroundings server transactions provider limiter inputs).reviewedFor
    surroundings server hcall above

/-- A server with a token for approvers, in local development. -/
def tokenServer : Server Transactions Unit RateWindows where
  toMcpDependencies := .memory (.mock {}) {}
  runtimeSettings := { operatorApproverToken := some "approver-token" }

/-- A library that reads no token. -/
def rejectingPyJwt : PyJwt where
  Key := Unit
  getUnverifiedHeader _ := .error (.other "Not enough segments")
  fromDict _ _ := .error (.other "Unable to find an algorithm for key")
  decode _ _ _ _ _ _ _ := .error (.other "Not enough segments")

/-- Surroundings in which nothing moves and no identity provider answers. -/
def stillSurroundings : Surroundings where
  env := .still
  web := .still
  jwt := rejectingPyJwt
  identityProvider := ⟨fun _ _ => .error (.other "connection refused")⟩
  pydantic := .strict

/-- A push of sixty thousand shillings is filed through the tool, and approved over HTTP and through the
tool. -/
def dualApproval : List ServerInput := [
  .tool (.initiateStkPush (.str "254700000001") (.int 60000) (.str "ref") (.str "d") .none),
  .request { route := .approvePaymentRequest "1", authorization := some "Bearer approver-token" },
  .tool (.approvePaymentRequest (.str "1"))]

/-- The one call of this run. -/
theorem dualApproval_pays :
    ∃ call ∈ (final (serverStep stillSurroundings tokenServer)
      (ServerWorld.start Keyed.empty () Keyed.empty) dualApproval).app.initiations,
      call.request.amount = 60000 := by
  have hmade : ((final (serverStep stillSurroundings tokenServer)
      (ServerWorld.start Keyed.empty () Keyed.empty) dualApproval).app.initiations.head?.map
        fun call => call.request.amount) = some 60000 := by
    decide +kernel
  obtain ⟨call, hcall, hamount⟩ := Option.map_eq_some_iff.mp hmade
  exact ⟨call, List.mem_of_head? hcall, hamount⟩

theorem large_payments_reviewed_dual :
    let w : ServerWorld Transactions Unit RateWindows := .start Keyed.empty () Keyed.empty
    ∃ request a, ReviewedFor stillSurroundings tokenServer
      (trace (serverStep stillSurroundings tokenServer) w dualApproval)
      (final (serverStep stillSurroundings tokenServer) w dualApproval).app.approvals request a := by
  intro w
  obtain ⟨call, hcall, hamount⟩ := dualApproval_pays
  refine ⟨_, large_payments_reviewed stillSurroundings tokenServer Keyed.empty () Keyed.empty
    dualApproval call hcall ?_⟩
  rw [hamount]
  decide

variable (surroundings : Surroundings) (server : Server τ π ρ)

/-! ## Configurations that know their operators -/

/-- The operator ids that a configuration can let in as approvers, where it names them. -/
def knownApprovers (settings : RuntimeSettings) : Option (List String) :=
  if settings.operatorAuthEnabled = false then some ["local-admin"]
  else if settings.authMode = "token" then some ["operator-approver", "operator-admin"]
  else if settings.authMode = "oidc" ∧ settings.oidcProviderMode = "development" then
    some [settings.oidcDevelopmentSubject]
  else if settings.authMode = "oidc" ∧ settings.oidcProviderMode = "jwks" then none
  else some []

/-- The static tokens know three identities. -/
theorem mem_of_matchToken {credential : String} {identity : OperatorIdentity}
    {tokenMap : List (Option String × OperatorIdentity)}
    (h : matchToken credential tokenMap = .ok (some identity)) : identity ∈ tokenMap.map Prod.snd := by
  induction tokenMap with
  | nil => cases h
  | cons entry tokenMap ih =>
    obtain ⟨configuredToken, configured⟩ := entry
    have later : matchToken credential tokenMap = .ok (some identity) →
        identity ∈ ((configuredToken, configured) :: tokenMap).map Prod.snd :=
      fun h => List.mem_cons_of_mem _ (ih h)
    unfold matchToken at h
    split at h
    next => exact later h
    next token =>
      split_ifs at h with hempty
      · exact later h
      · split at h
        next => cases h
        next =>
          cases h
          exact List.mem_cons_self
        next => exact later h

/-- The demo tokens name two operators who may approve. -/
theorem tokenAuthenticate_approver {settings : RuntimeSettings} {credential : Option String}
    {identity : OperatorIdentity} (h : tokenAuthenticate settings credential = .ok (some identity))
    (level : OperatorRole.approver.level ≤ identity.role.level) :
    identity.operatorId ∈ ["operator-approver", "operator-admin"] := by
  cases credential with
  | none => cases h
  | some credential =>
    have hmem := mem_of_matchToken h
    simp only [List.map_cons, List.map_nil, List.mem_cons, List.not_mem_nil, or_false] at hmem
    rcases hmem with rfl | rfl | rfl
    · exact absurd level (by decide)
    · exact List.mem_cons_self
    · exact List.mem_cons_of_mem _ List.mem_cons_self

/-- Where the operators are known by name, an approver is one of them. -/
theorem admits_known {known : List String}
    (hknown : knownApprovers server.runtimeSettings = some known) {authorization : Option String}
    {w : ServerWorld τ π ρ} {principal : OperatorIdentity}
    (h : Admits surroundings server .approver authorization w principal) :
    principal.operatorId ∈ known := by
  obtain ⟨hprincipal, level⟩ := h
  simp only [principalOf, getOperatorPrincipal] at hprincipal
  unfold knownApprovers at hknown
  cases henabled : server.runtimeSettings.operatorAuthEnabled with
  | false =>
    simp only [henabled, Bool.not_false, if_true, Prog.run_pure] at hprincipal hknown
    cases hprincipal
    cases hknown
    exact List.mem_cons_self
  | true =>
    simp only [henabled, Bool.not_true, Bool.false_eq_true, Bool.true_eq_false, if_false]
      at hprincipal hknown
    split at hprincipal
    next => cases hprincipal
    next token _ =>
      unfold identityProvider at hprincipal
      split_ifs at hprincipal hknown with htoken hdevelopment hjwks
      · cases hknown
        simp only [Prog.run_bind, Prog.run_pure, IdentityProvider.authenticate, Prog.run_ofExcept]
          at hprincipal
        cases hidentity : tokenAuthenticate server.runtimeSettings (some token) with
        | error e =>
          rw [hidentity] at hprincipal
          cases hprincipal
        | ok identity =>
          rw [hidentity] at hprincipal
          cases identity with
          | none => cases hprincipal
          | some identity =>
            cases hprincipal
            exact tokenAuthenticate_approver hidentity level
      · cases hknown
        simp only [Prog.run_bind, Prog.run_pure, IdentityProvider.authenticate,
          developmentAuthenticate] at hprincipal
        split_ifs at hprincipal
        · cases hprincipal
        · unfold developmentIdentity at hprincipal
          dsimp only at hprincipal
          split_ifs at hprincipal
          · cases hprincipal
          · cases hprincipal
            exact List.mem_cons_self
      · cases hprincipal

/-- The reviewers of a payment are among those whose reviews the history holds. -/
theorem ReviewedFor.within {history : List (ServerStep τ π ρ)} {approvals : Approvals}
    {request : InitiatePayment} {a : ApprovalRequest}
    (h : ReviewedFor surroundings server history approvals request a) (pool : Finset String)
    (among : ∀ st ∈ history, ∀ approvalId operatorId,
      Reviews surroundings server st approvalId operatorId → operatorId ∈ pool) :
    max 1 (server.approvalService.reviewersFor request.amount) ≤ (pool.card : Int) := by
  have hsub : a.reviewerIds.toFinset ⊆ pool := by
    intro operatorId hmem
    obtain ⟨st, hst, hreviews⟩ := h.reviewed operatorId (List.mem_toFinset.mp hmem)
    exact among st hst _ _ hreviews
  have hcard := Finset.card_le_card hsub
  rw [List.toFinset_card_of_nodup h.distinct] at hcard
  have hquorum := h.quorum
  omega

/-- **No payment beyond the operators there are**: where the configuration names its approvers, a payment
above the limit takes no more reviewers than these and `mcp_operator`; where no tool call approves, no
more than these. -/
theorem payments_within_operators {known : List String}
    (hknown : knownApprovers server.runtimeSettings = some known) (transactions : τ) (provider : π)
    (limiter : ρ) (inputs : List ServerInput) :
    let w := ServerWorld.start transactions provider limiter
    ∀ call ∈ (final (serverStep surroundings server) w inputs).app.initiations,
      server.settings.maxStkAmount < call.request.amount →
        max 1 (server.approvalService.reviewersFor call.request.amount) ≤
            (("mcp_operator" :: known).toFinset.card : Int) ∧
          ((∀ id, ServerInput.tool (.approvePaymentRequest id) ∉ inputs) →
            max 1 (server.approvalService.reviewersFor call.request.amount) ≤
              (known.toFinset.card : Int)) := by
  intro w call hcall above
  obtain ⟨a, hreviewed⟩ := (dutiesKept_run surroundings server transactions provider limiter
    inputs).reviewedFor surroundings server hcall above
  have hinputs : ∀ st ∈ trace (serverStep surroundings server) w inputs, st.input ∈ inputs := by
    intro st hst
    have hmem := List.mem_map_of_mem (f := Step.input) hst
    rwa [map_input_trace] at hmem
  constructor
  · refine hreviewed.within surroundings server _ ?_
    intro st hst approvalId operatorId hreviews
    obtain ⟨before, input, output, after⟩ := st
    cases input with
    | request sent =>
      obtain ⟨-, principal, hadmits, rfl⟩ := hreviews
      have hmem := admits_known surroundings server hknown hadmits
      exact List.mem_toFinset.mpr (List.mem_cons_of_mem _ hmem)
    | tool call =>
      rw [hreviews.2]
      exact List.mem_toFinset.mpr List.mem_cons_self
  · intro nobody
    refine hreviewed.within surroundings server _ ?_
    intro st hst approvalId operatorId hreviews
    have hinput := hinputs st hst
    obtain ⟨before, input, output, after⟩ := st
    cases input with
    | request sent =>
      obtain ⟨-, principal, hadmits, rfl⟩ := hreviews
      exact List.mem_toFinset.mpr (admits_known surroundings server hknown hadmits)
    | tool call =>
      obtain ⟨⟨id, rfl⟩, -⟩ := hreviews
      exact absurd hinput (nobody id)

theorem payments_within_operators_dual :
    max 1 (tokenServer.approvalService.reviewersFor 60000) ≤
      (["mcp_operator", "operator-approver", "operator-admin"].toFinset.card : Int) := by
  obtain ⟨call, hcall, hamount⟩ := dualApproval_pays
  have hknown : knownApprovers tokenServer.runtimeSettings =
      some ["operator-approver", "operator-admin"] := by decide
  have above : tokenServer.settings.maxStkAmount < call.request.amount := by
    rw [hamount]
    decide
  have hwithin := (payments_within_operators stillSurroundings tokenServer hknown Keyed.empty ()
    Keyed.empty dualApproval call hcall above).1
  rwa [hamount] at hwithin

end MpesaMcp
