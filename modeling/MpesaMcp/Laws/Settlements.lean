import MpesaMcp.Laws.Authority
import MpesaMcp.Laws.BallotRuns
import MpesaMcp.Laws.KeyedPayments
import MpesaMcp.Laws.Receipts

/-!
# The first acceptable delivery settles a payment

Over the in-memory repository. Whether a delivery passes the checks of the callback route, is no replay,
reaches the transaction and agrees with it is read off the delivery and the state that it meets
(`Delivers`). The first such delivery of a run decides what becomes of the transaction; nothing else that
reaches the server changes it (`payments_settled_by_first`).

Deliveries name a checkout request id, and the lookup answers with the first transaction that carries
it. So a transaction behind another one with its id is never delivered to, and stays as it is.
-/

set_option autoImplicit false

namespace MpesaMcp

open Library Python StkCallbackHandler

variable {π ρ : Type} (surroundings : Surroundings) (server : Server Transactions π ρ)

/-! ## The property -/

/-- The step delivers these fields to the callback route, which lets them through; the handler looks the
transaction up by the id they name, and it accepts them. -/
inductive Delivers (st : ServerStep Transactions π ρ) (t : PendingTransaction) (f : CallbackFields) :
    Prop
  | intro (delivery : CallbackRequest) (authorization correlationId : Option String)
      (input : st.input = .request ⟨.handleStkCallback delivery, authorization, correlationId⟩)
      (authenticated : server.callbackRoute.Authenticated delivery)
      (free : ¬ st.before.app.Taken surroundings.env server.toAppContainer delivery.payload)
      (read : readFields surroundings.env.toRuntime delivery.payload = .ok (some f))
      (found : firstMatch f.checkoutRequestId st.before.app.transactions = some t)
      (accepts : f.Accepts surroundings.env.toRuntime t)

/-- What becomes of a transaction in a run: the first fields delivered to it settle it. -/
inductive Settlement (t : PendingTransaction) :
    List (ServerStep Transactions π ρ) → PendingTransaction → Prop
  | unsettled (run : List (ServerStep Transactions π ρ))
      (none : ∀ st ∈ run, ∀ f, ¬ Delivers surroundings server st t f) : Settlement t run t
  | settled (history : List (ServerStep Transactions π ρ)) (st : ServerStep Transactions π ρ)
      (later : List (ServerStep Transactions π ρ))
      (first : ∀ earlier ∈ history, ∀ f, ¬ Delivers surroundings server earlier t f)
      (f : CallbackFields) (delivers : Delivers surroundings server st t f) (now : Datetime) :
      Settlement t (history ++ st :: later)
        ((f.update surroundings.env.toRuntime).apply t (targetStatus f.resultCode) now)

/-- What has been settled takes no further delivery. -/
theorem not_delivers_of_terminal {st : ServerStep Transactions π ρ} {t : PendingTransaction}
    (terminal : t.status ≠ .pending) (f : CallbackFields) : ¬ Delivers surroundings server st t f := by
  rintro ⟨_, _, _, _, _, _, _, _, accepts⟩
  exact terminal accepts.pending

/-! ## One operation -/

/-- The operations of the server that are no deliveries. -/
def Op.Adds : Op → Prop
  | .initiateStkPush _ => True
  | .executeApprovedPayment _ _ => True
  | .rejectRequest _ => True
  | .expireStaleApprovals => True
  | .listPendingRequests => True
  | _ => False

section Operation

variable {env : Env} {settings : Settings} {verifier : CallbackSourceVerifier}
  {provider : PaymentProvider π}

/-- A push adds a transaction at most. -/
theorem push_adds (request : InitiatePayment) (idempotencyKey : String) {w : World Transactions π}
    (issued : RowsIssued env w.ambient w.transactions) :
    w.transactions.Extends Eq (Prog.run (handle env (.inMemory settings verifier provider))
      (PaymentService.executeStkPush request idempotencyKey) w).2.transactions := by
  obtain ⟨-, hsame | ⟨args, k, createdAt, updatedAt, hdrawn, -, hput⟩⟩ :=
    memory_push env settings verifier provider request idempotencyKey w
  · rw [hsame]
    exact .refl (fun _ => rfl) _
  · rw [hput]
    exact Keyed.extends_put_of_none (fun _ => rfl) (issued.fresh hdrawn)

/-- An operation that is no delivery leaves every stored transaction as it is, in its place: a push
adds one behind the others under an id just drawn, and the rest writes none. -/
theorem step_adds {op : Op} (adds : op.Adds) {w : World Transactions π}
    (issued : RowsIssued env w.ambient w.transactions) :
    w.transactions.Extends Eq
      (step env (.inMemory settings verifier provider) op w).2.transactions := by
  have unmoved : ∀ {w' : World Transactions π}, w'.transactions = w.transactions →
      w.transactions.Extends Eq w'.transactions := by
    intro w' hsame
    rw [hsame]
    exact .refl (fun _ => rfl) _
  have spared : (program (.inMemory settings verifier provider) env.toRuntime op).Sends
      Msg.SparesTransactions → w.transactions.Extends Eq
        (step env (.inMemory settings verifier provider) op w).2.transactions :=
    fun sends => unmoved (run_keeps env _ World.transactions
      (fun _ hm => memory_handle env settings verifier provider hm) sends w)
  cases op with
  | initiateStkPush args =>
    obtain ⟨output, w', hrun, hcase⟩ :=
      initiation_cases env (.inMemory settings verifier provider) args w
    rw [step_after env (.inMemory settings verifier provider) rfl hrun]
    cases hcase with
    | quiet _ idle => exact unmoved idle.1
    | filed _ _ _ _ _ _ _ _ _ _ idle => exact unmoved idle.1
    | paid request _ _ _ ran =>
      have hpush := @push_adds π env settings verifier provider request
        (PaymentService.keyFor env.toRuntime args request) w issued
      rw [ran] at hpush
      exact hpush
  | executeApprovedPayment approvalId operatorId =>
    obtain ⟨output, w', hrun, hcase⟩ :=
      execution_cases env (.inMemory settings verifier provider) approvalId operatorId w
    rw [step_after env (.inMemory settings verifier provider) rfl hrun]
    cases hcase with
    | absent _ _ _ idle => exact unmoved idle.1
    | expired _ _ _ _ _ idle => exact unmoved idle.1
    | refused _ _ _ _ _ idle => exact unmoved idle.1
    | reviewed _ _ _ _ _ _ _ _ idle => exact unmoved idle.1
    | approved a _ _ _ _ _ w₁ _ _ idle paid _ _ forward =>
      have hissued : RowsIssued env w₁.ambient w₁.transactions := by
        rw [idle.1]
        exact issued.forward forward
      rw [paid, PaymentService.executeApprovedStkPush]
      split
      next => exact unmoved idle.1
      next request idempotencyKey _ =>
        rw [← idle.1]
        exact push_adds request idempotencyKey hissued
  | rejectRequest approvalId =>
    exact spared (.map ((ApprovalService.sends_rejectRequest approvalId).mono
      fun _ => Msg.OfApprovals.sparesTransactions) _)
  | expireStaleApprovals =>
    exact spared (.map (ApprovalService.sends_expireStaleApprovals.mono
      fun _ => Msg.OfApprovals.sparesTransactions) _)
  | listPendingRequests =>
    exact spared (.map (ApprovalService.sends_listPendingRequests.mono
      fun _ => Msg.OfApprovals.sparesTransactions) _)
  | _ => exact adds.elim

/-- Whatever an input that is no delivery drives leaves every stored transaction as it is, in its
place, and only adds transactions; the identifiers stay issued meanwhile. -/
theorem Drives.adds {does : Op → Prop} {w w' : World Transactions π}
    (drives : Drives env (.inMemory settings verifier provider) does w w')
    (adds : ∀ op, does op → op.Adds) (issued : RowsIssued env w.ambient w.transactions) :
    RowsIssued env w'.ambient w'.transactions ∧ w.transactions.Extends Eq w'.transactions := by
  refine drives.kept (I := fun v : World Transactions π =>
    RowsIssued env v.ambient v.transactions ∧ w.transactions.Extends Eq v.transactions) ?_ ?_ ?_
    ⟨issued, .refl (fun _ => rfl) _⟩
  · intro v a forward hv
    exact ⟨hv.1.forward forward, hv.2⟩
  · intro m v hm hv
    have hforward := handle_forward env (.inMemory settings verifier provider) m v
    have hsame := memory_handle env settings verifier provider hm.sparesTransactions v
    rw [hsame]
    exact ⟨hv.1.forward hforward, hv.2⟩
  · intro op hdoes v hv
    obtain ⟨hissued, -⟩ := @memory_extends π env settings verifier provider op v hv.1
    have hadds := @step_adds π env settings verifier provider op (adds op hdoes) v hv.1
    exact ⟨hissued, Keyed.Extends.trans (R := Eq) (fun _ _ _ => Eq.trans) hv.2 hadds⟩

end Operation

/-! ## One step of the server -/

section Server

variable {surroundings server} {settings : Settings} {verifier : CallbackSourceVerifier}
  {provider : PaymentProvider π} {t : PendingTransaction}

/-- Whatever the server does, the identifiers stay issued: every stored transaction has an id that was
drawn, so a push can never overwrite one. -/
theorem serverStep_issued (memory : server.toAppContainer = .inMemory settings verifier provider)
    (input : ServerInput) {w : ServerWorld Transactions π ρ}
    (issued : RowsIssued surroundings.env w.app.ambient w.app.transactions) :
    let w' := (serverStep surroundings server input w).2
    RowsIssued surroundings.env w'.app.ambient w'.app.transactions := by
  intro w'
  have hdrives := serverStep_drives surroundings server input w
  rw [memory] at hdrives
  refine hdrives.kept (I := fun v : World Transactions π =>
    RowsIssued surroundings.env v.ambient v.transactions) ?_ ?_ ?_ issued
  · intro v a forward hv
    exact hv.forward forward
  · intro m v hm hv
    have hforward := handle_forward surroundings.env (.inMemory settings verifier provider) m v
    rw [memory_handle surroundings.env settings verifier provider hm.sparesTransactions v]
    exact hv.forward hforward
  · intro op _ v hv
    exact (@memory_extends π surroundings.env settings verifier provider op v hv).1

/-- An input that is no delivery leads to operations that add at most. -/
theorem ServerInput.Does.adds {w : ServerWorld Transactions π ρ} {input : ServerInput} {op : Op}
    (other : ∀ delivery authorization correlationId,
      input ≠ .request ⟨.handleStkCallback delivery, authorization, correlationId⟩)
    (does : input.Does surroundings server w op) : op.Adds := by
  cases input with
  | request sent =>
    obtain ⟨route, authorization, header⟩ := sent
    cases route with
    | handleStkCallback delivery => exact absurd rfl (other delivery authorization header)
    | _ => cases op <;> trivial
  | tool call => cases call <;> cases op <;> trivial

/-- A delivery is its operation: the route around it chooses a correlation id and logs, and leaves the
application alone. -/
theorem serverStep_delivery (delivery : CallbackRequest) (authorization correlationId : Option String)
    (w : ServerWorld Transactions π ρ) :
    (serverStep surroundings server
        (.request ⟨.handleStkCallback delivery, authorization, correlationId⟩) w).2.app =
      (step surroundings.env server.toAppContainer (.postCallback delivery) w.app).2 := by
  have happ := handleRequest_app surroundings server
    ⟨.handleStkCallback delivery, authorization, correlationId⟩ w
  refine happ.trans ?_
  have hserve := serve_step surroundings server (.postCallback delivery)
    (correlationContext surroundings.web none correlationId w.logging).1 rfl
    { w with logging := (correlationContext surroundings.web none correlationId w.logging).2 }
  refine Eq.trans ?_ hserve
  simp only [Route.handler, Prog.run_bind, Http.run_call]
  split
  next answer w₁ hanswer => exact (congrArg (fun r => r.2.app) hanswer).symm
  next e w₁ hanswer => exact (congrArg (fun r => r.2.app) hanswer).symm

/-- What a step makes of a stored transaction: it leaves it as it is and delivers nothing to it, or it
settles it with the fields that it delivers. -/
inductive StepSettles (st : ServerStep Transactions π ρ) (t : PendingTransaction) : Prop
  | kept (none : ∀ f, ¬ Delivers surroundings server st t f)
      (stored : st.after.app.transactions.get t.transactionId = some t)
  | settled (f : CallbackFields) (delivers : Delivers surroundings server st t f) (now : Datetime)
      (stored : st.after.app.transactions.get t.transactionId =
        some ((f.update surroundings.env.toRuntime).apply t (targetStatus f.resultCode) now))

/-- A delivery settles the transaction that its lookup finds, and leaves every other one as it is: also
those that carry the same checkout request id further back in the store. -/
theorem delivery_settles (memory : server.toAppContainer = .inMemory settings verifier provider)
    (delivery : CallbackRequest) (authorization correlationId : Option String)
    {w : ServerWorld Transactions π ρ}
    (stored : w.app.transactions.get t.transactionId = some t) :
    @StepSettles π ρ surroundings server (stepAt (serverStep surroundings server) w
      (.request ⟨.handleStkCallback delivery, authorization, correlationId⟩)) t := by
  have hafter := congrArg World.transactions
    (@serverStep_delivery π ρ surroundings server delivery authorization correlationId w)
  have kept : ∀ {transactions : Transactions},
      (serverStep surroundings server
        (.request ⟨.handleStkCallback delivery, authorization, correlationId⟩) w).2.app.transactions =
          transactions → transactions.get t.transactionId = some t →
      (serverStep surroundings server
        (.request ⟨.handleStkCallback delivery, authorization, correlationId⟩) w).2.app.transactions.get
          t.transactionId = some t := by
    intro transactions hsame hget
    rw [hsame]
    exact hget
  rcases step_postCallback surroundings.env server.toAppContainer delivery w.app with
    ⟨hrejected, hsame, -⟩ | ⟨hauthenticated, hfree, hprocessed, -⟩
  · -- the route stops it
    refine .kept ?_ (kept (hafter.trans hsame) stored)
    rintro f ⟨delivery', _, _, input, authenticated, free, -, -, -⟩
    cases input
    rcases hrejected with hun | htaken
    · exact hun authenticated
    · exact free htaken
  · have hadmitted := World.admitted_transactions surroundings.env server.toAppContainer
      delivery.payload w.app
    rw [memory] at hafter hprocessed hadmitted
    rcases memory_process surroundings.env settings verifier provider delivery.payload
        (w.app.admitted surroundings.env (.inMemory settings verifier provider) delivery.payload) with
      ⟨-, hsame, hrefuses⟩ | ⟨f, u, hread, hfound, haccepts, -, hput⟩
    · -- the handler refuses it
      refine .kept ?_ (kept (hafter.trans (hprocessed.trans (hsame.trans hadmitted))) stored)
      rintro f ⟨delivery', _, _, input, -, -, read, found, accepts⟩
      cases input
      refine hrefuses f t read ?_ accepts
      rw [hadmitted]
      exact found
    · rw [hadmitted] at hfound hput
      have hstored := hafter.trans (hprocessed.trans hput)
      by_cases hid : t.transactionId = u.transactionId
      · -- the lookup finds this transaction
        have hget : w.app.transactions.get u.transactionId = some t := hid ▸ stored
        cases (get_of_firstMatch hfound).1.symm.trans hget
        have hstored := congrArg (Keyed.get · t.transactionId) hstored
        exact .settled f ⟨delivery, authorization, correlationId, rfl, hauthenticated, hfree, hread,
          hfound, haccepts⟩ _ (hstored.trans (Keyed.get_put_self _ _))
      · -- it finds another one
        refine .kept ?_ (kept hstored ?_)
        · rintro g ⟨delivery', _, _, input, -, -, read, found, -⟩
          cases input
          cases hread.symm.trans read
          cases hfound.symm.trans found
          exact hid rfl
        · refine Eq.trans (Keyed.get_put_of_ne _ ?_) stored
          exact hid

/-- **One step of the server and one transaction**: a delivery settles it where the lookup finds it and
it agrees; any other delivery, and any other input, leaves it as it is. -/
theorem serverStep_settles (memory : server.toAppContainer = .inMemory settings verifier provider)
    (input : ServerInput) {w : ServerWorld Transactions π ρ}
    (issued : RowsIssued surroundings.env w.app.ambient w.app.transactions)
    (stored : w.app.transactions.get t.transactionId = some t) :
    @StepSettles π ρ surroundings server (stepAt (serverStep surroundings server) w input) t := by
  by_cases hdelivery : ∃ delivery authorization correlationId,
      input = .request ⟨.handleStkCallback delivery, authorization, correlationId⟩
  · obtain ⟨delivery, authorization, correlationId, rfl⟩ := hdelivery
    exact delivery_settles memory delivery authorization correlationId stored
  · have hother : ∀ delivery authorization correlationId,
        input ≠ .request ⟨.handleStkCallback delivery, authorization, correlationId⟩ := by
      intro delivery authorization correlationId hinput
      exact hdelivery ⟨delivery, authorization, correlationId, hinput⟩
    have hdrives := serverStep_drives surroundings server input w
    rw [memory] at hdrives
    obtain ⟨-, hextends⟩ := hdrives.adds (fun op does => does.adds hother) issued
    obtain ⟨u, hu, rfl⟩ := hextends.get (fun a b hab => by rw [hab]) stored
    refine .kept ?_ hu
    rintro f ⟨delivery, authorization, correlationId, input, -, -, -, -, -⟩
    exact hother delivery authorization correlationId input

/-! ## Runs -/

/-- What has been settled stays as it is for the rest of the run, by induction on it: only a pending
transaction accepts a delivery, so every later step takes the branch that leaves this one alone. -/
theorem run_terminal (memory : server.toAppContainer = .inMemory settings verifier provider)
    (inputs : List ServerInput) {w : ServerWorld Transactions π ρ}
    (issued : RowsIssued surroundings.env w.app.ambient w.app.transactions)
    (stored : w.app.transactions.get t.transactionId = some t) (terminal : t.status ≠ .pending) :
    (final (serverStep surroundings server) w inputs).app.transactions.get t.transactionId =
      some t := by
  induction inputs generalizing w with
  | nil => exact stored
  | cons input inputs ih =>
    have hissued := serverStep_issued memory input issued
    cases serverStep_settles memory input issued stored with
    | kept _ hstored => exact ih hissued hstored
    | settled f delivers => exact absurd delivers (not_delivers_of_terminal _ _ terminal f)

/-- A run, by induction on its inputs: up to the first delivery every step keeps the transaction, this
delivery settles it, and the rest of the run keeps what it was settled to (`run_terminal`). -/
theorem run_settles (memory : server.toAppContainer = .inMemory settings verifier provider)
    (inputs : List ServerInput) {w : ServerWorld Transactions π ρ}
    (issued : RowsIssued surroundings.env w.app.ambient w.app.transactions)
    (stored : w.app.transactions.get t.transactionId = some t) :
    ∃ u, (final (serverStep surroundings server) w inputs).app.transactions.get t.transactionId =
        some u ∧
      Settlement surroundings server t (trace (serverStep surroundings server) w inputs) u := by
  induction inputs generalizing w with
  | nil => exact ⟨t, stored, .unsettled [] fun st hst => absurd hst List.not_mem_nil⟩
  | cons input inputs ih =>
    have hissued := serverStep_issued memory input issued
    cases serverStep_settles memory input issued stored with
    | settled f delivers now hstored =>
      -- from here on nothing is delivered to it
      let u := (f.update surroundings.env.toRuntime).apply t (targetStatus f.resultCode) now
      have hlater := run_terminal (t := u) memory inputs hissued hstored
        (terminal_targetStatus f.resultCode)
      refine ⟨u, hlater, ?_⟩
      exact .settled [] _ _ (fun earlier h => absurd h List.not_mem_nil) f delivers now
    | kept none hstored =>
      obtain ⟨u, hu, hsettlement⟩ := ih hissued hstored
      refine ⟨u, hu, ?_⟩
      rw [trace]
      generalize trace (serverStep surroundings server) (serverStep surroundings server input w).2
        inputs = run at hsettlement ⊢
      cases hsettlement with
      | unsettled _ hnone =>
        refine .unsettled _ fun st hst => ?_
        rcases List.mem_cons.mp hst with rfl | hst
        · exact none
        · exact hnone st hst
      | settled history st later first f delivers now =>
        refine .settled (_ :: history) st later (fun earlier h => ?_) f delivers now
        rcases List.mem_cons.mp h with rfl | h
        · exact none
        · exact first earlier h

end Server

/-! ## The theorem -/

/-- In every run from an empty store the identifiers of the stored transactions were drawn before, so
the next one drawn is new. -/
theorem issued_run {settings : Settings} {verifier : CallbackSourceVerifier}
    {provider : PaymentProvider π}
    (memory : server.toAppContainer = .inMemory settings verifier provider) (state : π) (limiter : ρ)
    (inputs : List ServerInput) :
    let w := final (serverStep surroundings server) (ServerWorld.start Keyed.empty state limiter) inputs
    RowsIssued surroundings.env w.app.ambient w.app.transactions :=
  state_invariant (I := fun w : ServerWorld Transactions π ρ =>
      RowsIssued surroundings.env w.app.ambient w.app.transactions)
    (issued_start state) (fun _ input h => serverStep_issued memory input h) inputs

/-- **The first acceptable delivery settles a payment, and nothing else does**: take any transaction in
any state that the server comes to, and whatever reaches the server after. Where no delivery to the
callback route is authentic, no replay, finds the transaction by the id it names and is acceptable to it,
the transaction stays as it is; the first one that is all this decides its status, receipt number and
result, and no later one changes them. -/
theorem payments_settled_by_first (settings : Settings) (verifier : CallbackSourceVerifier)
    (provider : PaymentProvider π)
    (memory : server.toAppContainer = .inMemory settings verifier provider) (state : π) (limiter : ρ)
    (before later : List ServerInput) :
    let w := final (serverStep surroundings server) (ServerWorld.start Keyed.empty state limiter) before
    let w' := final (serverStep surroundings server) w later
    ∀ transactionId t, w.app.transactions.get transactionId = some t →
      ∃ u, w'.app.transactions.get transactionId = some u ∧
        Settlement surroundings server t (trace (serverStep surroundings server) w later) u := by
  intro w w' transactionId t stored
  have hissued : RowsIssued surroundings.env w.app.ambient w.app.transactions :=
    issued_run surroundings server memory state limiter before
  have hkey : t.transactionId = transactionId := Keyed.key_of_get stored
  subst hkey
  exact run_settles memory later hissued stored

/-- A push of ten shillings. -/
def tenShillingsPush : ServerInput :=
  .tool (.initiateStkPush (.str "254700000001") (.int 10) (.str "ref") (.str "d") .none)

/-- A delivery that says the first push was paid. -/
def paidDelivery : ServerInput :=
  .request { route := .handleStkCallback { payload := [("Body", .dict [("stkCallback", .dict [
    ("CheckoutRequestID", .str "ws_CO_1"),
    ("ResultCode", .int 0),
    ("ResultDesc", .str "Processed."),
    ("CallbackMetadata", .dict [("Item", .list [
      .dict [("Name", .str "Amount"), ("Value", .int 10)],
      .dict [("Name", .str "MpesaReceiptNumber"), ("Value", .str "NLJ7RT61SV")],
      .dict [("Name", .str "PhoneNumber"), ("Value", .str "254700000001")]])])])])] } }

/-- The push is stored, and pending. -/
theorem tenShillingsPush_stored : ∃ t,
    (final (serverStep stillSurroundings tokenServer) (ServerWorld.start Keyed.empty () Keyed.empty)
      [tenShillingsPush]).app.transactions.get t.transactionId = some t ∧ t.status = .pending := by
  have hpushed : (final (serverStep stillSurroundings tokenServer)
      (ServerWorld.start Keyed.empty () Keyed.empty) [tenShillingsPush]).app.transactions.values.map
        (fun t => t.status) = [.pending] := by
    decide +kernel
  obtain ⟨t, ht, hpending⟩ : ∃ t ∈ (final (serverStep stillSurroundings tokenServer)
      (ServerWorld.start Keyed.empty () Keyed.empty) [tenShillingsPush]).app.transactions.values,
        t.status = .pending :=
    List.mem_map.mp (hpushed ▸ List.mem_singleton_self _)
  exact ⟨t, Keyed.mem_values_iff.mp ht, hpending⟩

/-- The push, paid, with the delivery made twice. -/
theorem payments_settled_by_first_paid :
    let w := final (serverStep stillSurroundings tokenServer)
      (ServerWorld.start Keyed.empty () Keyed.empty) [tenShillingsPush]
    let w' := final (serverStep stillSurroundings tokenServer) w [paidDelivery, paidDelivery]
    ∃ t u, w.app.transactions.get t.transactionId = some t ∧ t.status = .pending ∧
      w'.app.transactions.get t.transactionId = some u ∧
      Settlement stillSurroundings tokenServer t
        (trace (serverStep stillSurroundings tokenServer) w [paidDelivery, paidDelivery]) u := by
  obtain ⟨t, ht, hpending⟩ := tenShillingsPush_stored
  obtain ⟨u, hu, hsettlement⟩ := payments_settled_by_first stillSurroundings tokenServer _ _ _ rfl ()
    Keyed.empty [tenShillingsPush] [paidDelivery, paidDelivery] t.transactionId t ht
  exact ⟨t, u, ht, hpending, hu, hsettlement⟩

end MpesaMcp
