import MpesaMcp.Laws.Settlements

/-!
# The books balance

Over the in-memory repository. The pushes that the provider accepted are its side of the books, the
stored transactions are the server's. Whatever reaches the server, the two sides agree entry by entry,
and no idempotency key is charged twice (`books_balance`).
-/

set_option autoImplicit false

namespace MpesaMcp

open Library Python PaymentService

variable {π ρ : Type}

/-! ## The property -/

/-- The pushes that the provider accepted, in their order, with what it answered. -/
def acceptedPushes (initiations : List Initiation) :
    List (InitiatePayment × PaymentInitiationResponse) :=
  initiations.filterMap fun call => call.result.toOption.map fun response => (call.request, response)

/-- The transaction keeps what was requested in the push, and the names that the provider gave it. -/
def RecordsPush (push : InitiatePayment × PaymentInitiationResponse) (t : PendingTransaction) : Prop :=
  ∃ idempotencyKey transactionId createdAt updatedAt, SameIdentity
    ((saveArguments push.1 idempotencyKey push.2).record transactionId createdAt updatedAt) t

/-- Each accepted push is stored once, and nothing else is; no two of them carry one key. -/
structure BooksBalance (w : World Transactions π) : Prop where
  recorded : List.Forall₂ RecordsPush (acceptedPushes w.initiations) w.transactions.values
  distinct : DistinctKeys w.transactions

/-- What has been charged is what is on record, to the shilling. -/
theorem BooksBalance.amounts {w : World Transactions π} (h : BooksBalance w) :
    ((acceptedPushes w.initiations).map fun push => push.1.amount).sum =
      (w.transactions.values.map PendingTransaction.amount).sum := by
  have hlist : (acceptedPushes w.initiations).map (fun push => push.1.amount) =
      w.transactions.values.map PendingTransaction.amount := by
    rw [← List.forall₂_eq_eq_eq, List.forall₂_map_left_iff, List.forall₂_map_right_iff]
    refine h.recorded.imp ?_
    rintro push t ⟨_, _, _, _, hsame⟩
    exact hsame.amount.symm
  rw [hlist]

/-! ## One operation -/

section Operation

variable {env : Env} {settings : Settings} {verifier : CallbackSourceVerifier}
  {provider : PaymentProvider π} {w w' : World Transactions π}

theorem acceptedPushes_append (calls : List Initiation) (call : Initiation) :
    acceptedPushes (calls ++ [call]) = acceptedPushes calls ++
      (call.result.toOption.map fun response => (call.request, response)).toList := by
  simp only [acceptedPushes, List.filterMap_append, List.filterMap_cons, List.filterMap_nil]
  cases call.result.toOption <;> rfl

theorem RecordsPush.of_same {push : InitiatePayment × PaymentInitiationResponse}
    {t u : PendingTransaction} (h : RecordsPush push t) (same : SameIdentity t u) :
    RecordsPush push u := by
  obtain ⟨idempotencyKey, transactionId, createdAt, updatedAt, hrecord⟩ := h
  exact ⟨idempotencyKey, transactionId, createdAt, updatedAt, hrecord.trans same⟩

namespace BooksBalance

theorem start (state : π) : BooksBalance (start Keyed.empty state : World Transactions π) where
  recorded := .nil
  distinct _ _ ht := absurd ht List.not_mem_nil

/-- Transactions that are settled in their places stay on record. -/
theorem paired (h : BooksBalance w) (paired : w.transactions.Paired SameIdentity w'.transactions)
    (calls : w'.initiations = w.initiations) : BooksBalance w' where
  recorded := by
    have hflip : List.Forall₂ (flip RecordsPush) w'.transactions.values
        (acceptedPushes w.initiations) :=
      forall₂_over (R := SameIdentity) (S := flip RecordsPush) (T := flip RecordsPush)
        (fun _ _ _ same record => RecordsPush.of_same record same) paired h.recorded.flip
    rw [calls]
    exact hflip.flip
  distinct := h.distinct.paired paired

theorem congr (h : BooksBalance w) (transactions : w'.transactions = w.transactions)
    (calls : w'.initiations = w.initiations) : BooksBalance w' :=
  ⟨transactions ▸ calls ▸ h.recorded, transactions ▸ h.distinct⟩

/-- **A push** enters both sides of the books, or neither. -/
theorem push (h : BooksBalance w) (issued : RowsIssued env w.ambient w.transactions)
    (request : InitiatePayment) (idempotencyKey : String) :
    BooksBalance (Prog.run (handle env (.inMemory settings verifier provider))
      (executeStkPush request idempotencyKey) w).2 := by
  cases push_memory env settings verifier provider request idempotencyKey w with
  | existing t found answer after =>
    rw [after]
    exact h
  | declined missing e answer transactions events metrics call refused calls =>
    refine ⟨?_, transactions ▸ h.distinct⟩
    rw [calls, transactions, acceptedPushes_append, refused]
    exact (List.append_nil _).symm ▸ h.recorded
  | recorded missing response t k drawn createdAt updatedAt record answer put events metrics call
      accepted calls =>
    have hrequest : call.request = request := by
      obtain ⟨call', hrequest, hcalls⟩ := push_called env (.inMemory settings verifier provider) request
        (congrArg Except.ok missing :
          (keyAnswer env (.inMemory settings verifier provider) idempotencyKey w.store).1 = .ok none)
      have hcall : call' = call := by simpa using hcalls.symm.trans calls
      exact hcall ▸ hrequest
    have hfresh : w.transactions.get t.transactionId = none := by
      rw [record]
      exact issued.fresh drawn.1
    refine ⟨?_, ?_⟩
    · rw [calls, put, acceptedPushes_append, accepted, hrequest, Keyed.put_values_of_none hfresh]
      refine List.rel_append h.recorded (.cons ?_ .nil)
      refine ⟨idempotencyKey, env.uuid4 k, createdAt, updatedAt, ?_⟩
      rw [record]
      exact SameIdentity.refl _
    · rw [put]
      refine h.distinct.put ?_ missing
      rw [record]
      rfl

/-- **One operation**: it pushes, and then the store and the record of calls grow by the same accepted
push or not at all; or it settles transactions at most, which keeps what the books compare. -/
theorem step (h : BooksBalance w) (issued : RowsIssued env w.ambient w.transactions) {op : Op}
    (indirect : ∀ args, op ≠ .savePendingTransaction args) :
    BooksBalance (MpesaMcp.step env (.inMemory settings verifier provider) op w).2 := by
  cases execution_of env (.inMemory settings verifier provider) op indirect w with
  | silent observed =>
    obtain ⟨hpaired, hcalls⟩ := silent_paired observed
    exact h.paired hpaired hcalls
  | pushes request idempotencyKey _ w₁ idle forward _ _ _ after =>
    rw [after]
    have hissued : RowsIssued env w₁.ambient w₁.transactions := by
      rw [idle.1]
      exact issued.forward forward
    exact (h.congr idle.1 idle.2).push hissued request idempotencyKey

end BooksBalance

end Operation

/-! ## The server -/

section Server

variable {surroundings : Surroundings} {server : Server Transactions π ρ} {settings : Settings}
  {verifier : CallbackSourceVerifier} {provider : PaymentProvider π}

/-- The server stores transactions through a push only. -/
theorem ServerInput.Does.indirect {w : ServerWorld Transactions π ρ} {input : ServerInput} {op : Op}
    (does : input.Does surroundings server w op) (args : SavePendingTransaction) :
    op ≠ .savePendingTransaction args := by
  rintro rfl
  cases input with
  | request sent =>
    obtain ⟨route, authorization, header⟩ := sent
    cases route <;> exact does
  | tool call => cases call <;> exact does

/-- One input of the server keeps the books balanced, as every operation and every message that it
drives does. -/
theorem serverStep_balanced (memory : server.toAppContainer = .inMemory settings verifier provider)
    (input : ServerInput) {w : ServerWorld Transactions π ρ}
    (issued : RowsIssued surroundings.env w.app.ambient w.app.transactions)
    (h : BooksBalance w.app) : BooksBalance (serverStep surroundings server input w).2.app := by
  have hdrives := serverStep_drives surroundings server input w
  rw [memory] at hdrives
  refine (hdrives.kept (I := fun v : World Transactions π =>
    RowsIssued surroundings.env v.ambient v.transactions ∧ BooksBalance v) ?_ ?_ ?_ ⟨issued, h⟩).2
  · intro v a forward hv
    exact ⟨hv.1.forward forward, hv.2.congr rfl rfl⟩
  · intro m v hm hv
    have hforward := handle_forward surroundings.env (.inMemory settings verifier provider) m v
    have hsame := memory_handle surroundings.env settings verifier provider hm.sparesTransactions v
    have hcalls := handle_initiations surroundings.env (.inMemory settings verifier provider)
      hm.sparesProvider v
    refine ⟨?_, hv.2.congr hsame hcalls⟩
    rw [hsame]
    exact hv.1.forward hforward
  · intro op does v hv
    obtain ⟨hissued, -⟩ := @memory_extends π surroundings.env settings verifier provider op v hv.1
    exact ⟨hissued, hv.2.step hv.1 does.indirect⟩

end Server

/-! ## The theorem -/

/-- **The books balance**: in every state that a server over the in-memory repository comes to, whatever
reaches it, the stored transactions are the pushes that the provider accepted, one for one and in their
order, each with what was requested and the names that the provider gave; and no two of them carry one
idempotency key. -/
theorem books_balance (surroundings : Surroundings) (server : Server Transactions π ρ)
    (settings : Settings) (verifier : CallbackSourceVerifier) (provider : PaymentProvider π)
    (memory : server.toAppContainer = .inMemory settings verifier provider) (state : π) (limiter : ρ)
    (inputs : List ServerInput) :
    BooksBalance (final (serverStep surroundings server)
      (ServerWorld.start Keyed.empty state limiter) inputs).app := by
  refine (state_invariant (I := fun w : ServerWorld Transactions π ρ =>
    RowsIssued surroundings.env w.app.ambient w.app.transactions ∧ BooksBalance w.app)
    ⟨issued_start state, .start state⟩ ?_ inputs).2
  intro w input h
  exact ⟨serverStep_issued memory input h.1, serverStep_balanced memory input h.1 h.2⟩

/-- A push that is made, paid, and made again is on record once. -/
theorem books_balance_paid :
    let w := (final (serverStep stillSurroundings tokenServer)
      (ServerWorld.start Keyed.empty () Keyed.empty)
        [tenShillingsPush, paidDelivery, tenShillingsPush]).app
    BooksBalance w ∧ (acceptedPushes w.initiations).length = 1 :=
  ⟨books_balance stillSurroundings tokenServer _ _ _ rfl () Keyed.empty
    [tenShillingsPush, paidDelivery, tenShillingsPush], by decide +kernel⟩

end MpesaMcp
