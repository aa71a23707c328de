import MpesaMcp.Laws.Database
import MpesaMcp.Laws.Identity

/-!
# Repositories as stores of rows

`RowStore` states what the payment service relies on in a transaction repository: a lookup by key
changes nothing and fails or finds the first row, a save fails or adds a row under an identifier it
draws, and the other methods only change rows in place. Both repositories are row stores, so a run of
the application over either one only extends the rows (`RowStore.run_extends`).
-/

set_option autoImplicit false

namespace MpesaMcp

open Library Python

/-! ## The laws -/

/-- The row that a lookup by key finds. -/
def keyMatch (idempotencyKey : String) (rows : Transactions) : Option PendingTransaction :=
  InMemoryTransactionRepository.findByIdempotencyKey idempotencyKey rows

/-- A row with this key is stored. -/
def HasKey (idempotencyKey : String) (rows : Transactions) : Prop :=
  ∃ t ∈ rows.values, t.idempotencyKey = some idempotencyKey

/-- What a save answers and does. -/
inductive RowSave (env : Env) (args : SavePendingTransaction) (a : Ambient) (rows : Transactions)
    (output : Except Exn PendingTransaction) (a' : Ambient) (rows' : Transactions) : Prop
  | refused (e : Exn) (answer : output = .error e) (same : rows' = rows)
  | stored (createdAt updatedAt : Datetime) (drawn : a.uuidDraws < a'.uuidDraws)
      (put : rows' = rows.put (args.record (env.uuid4 a.uuidDraws) createdAt updatedAt))
      (answer : output = .ok (args.record (env.uuid4 a.uuidDraws) createdAt updatedAt) ∨
        ∃ e, output = .error e)

/-- A repository whose state holds rows. -/
structure RowStore {τ : Type} (repository : TransactionRepository τ) where
  rows : τ → Transactions
  lookup : ∀ env idempotencyKey a d,
    let r := repository.answer env (.findByIdempotencyKey idempotencyKey) (a, d)
    r.2.2 = d ∧ (r.1 = .ok (keyMatch idempotencyKey (rows d)) ∨ ∃ e, r.1 = .error e)
  save : ∀ env args a d,
    let r := repository.answer env (.savePendingTransaction args) (a, d)
    RowSave env args a (rows d) r.1 r.2.1 (rows r.2.2)
  keeps : ∀ env m a d, (∀ args, m ≠ .savePendingTransaction args) →
    (rows d).Paired SameIdentity (rows (repository.answer env m (a, d)).2.2)

theorem keyMatch_eq_none {idempotencyKey : String} {rows : Transactions} :
    keyMatch idempotencyKey rows = none ↔ ¬ HasKey idempotencyKey rows := by
  unfold keyMatch HasKey InMemoryTransactionRepository.findByIdempotencyKey
  simp only [List.find?_eq_none, decide_eq_true_eq, not_exists, not_and]

/-! ## The in-memory repository -/

/-- The dictionary of transactions is a store of rows; its saves never fail. -/
def InMemoryTransactionRepository.rowStore : RowStore InMemoryTransactionRepository where
  rows := id
  lookup _ _ _ _ := ⟨rfl, Or.inl rfl⟩
  save _ _ a _ := .stored _ _ (Nat.lt_succ_self a.uuidDraws) rfl (Or.inl rfl)
  keeps env m a d h := by
    cases m with
    | savePendingTransaction args => exact absurd rfl (h args)
    | updateTransactionStatus args =>
      rcases memory_update env (a, d) args with
        ⟨-, hr⟩ | ⟨t, e, -, -, hr⟩ | ⟨t, status, found, -, hr⟩
      · show Keyed.Paired _ d (InMemoryTransactionRepository.answer env _ (a, d)).2.2
        rw [hr]
        exact .refl SameIdentity.refl d
      · show Keyed.Paired _ d (InMemoryTransactionRepository.answer env _ (a, d)).2.2
        rw [hr]
        exact .refl SameIdentity.refl d
      · show Keyed.Paired _ d (InMemoryTransactionRepository.answer env _ (a, d)).2.2
        rw [hr]
        exact Keyed.paired_put_of_some SameIdentity.refl (get_of_firstMatch found).1
          (.apply args t status _)
    | _ => exact .refl SameIdentity.refl d

/-! ## The Postgres repository -/

/-- Every request but an INSERT. -/
def DatabaseCall.AddsNone : DatabaseCall → Prop
  | .commitInsert _ => False
  | _ => True

namespace TransactionTable

/-- The rows are the same ones, but for their mutable columns. -/
def Kept (s s' : Ambient × TransactionTable) : Prop := s.2.rows.Paired SameIdentity s'.2.rows

theorem Kept.trans (s s' s'' : Ambient × TransactionTable) (h : Kept s s') (h' : Kept s' s'') :
    Kept s s'' :=
  forall₂_trans (R := SameIdentity) (fun _ _ _ => SameIdentity.trans) h h'

/-- An UPDATE keeps the identity of its row. -/
theorem update_kept {t t' : TransactionTable} {loaded assigned : PendingTransaction}
    (h : t.update loaded assigned = .ok t') : t.rows.Paired SameIdentity t'.rows := by
  unfold TransactionTable.update at h
  split at h
  next => cases h
  next current hget =>
    split at h
    next =>
      cases h
      have hkey : current.transactionId = loaded.transactionId := Keyed.key_of_get hget
      refine Keyed.paired_put_of_some SameIdentity.refl (a := current) (hkey ▸ hget) ?_
      constructor <;> rfl
    next => cases h

/-- Only an INSERT adds a row. -/
theorem answer_kept (env : Env) {c : DatabaseCall} (h : c.AddsNone)
    (s : Ambient × TransactionTable) : Kept s (answer env c s).2 := by
  have hexecute : ∀ a, s.2.rows.Paired SameIdentity (s.2.execute c a env).2.2.rows := by
    intro a
    have hsame : s.2.rows.Paired SameIdentity s.2.rows := .refl SameIdentity.refl _
    cases c with
    | commitInsert row => exact absurd h id
    | commitUpdate loaded assigned =>
      simp only [execute]
      split
      next hupdate => exact update_kept hupdate
      next => exact hsame
    | selectRecent limit =>
      simp only [execute]
      split <;> exact hsame
    | refresh transactionId =>
      simp only [execute]
      split <;> exact hsame
    | _ => exact hsame
  unfold Kept
  by_cases hstatement : IsStatement c = true
  · by_cases hfails : (s.1.statement env).1 = true
    · simp only [answer, hstatement, hfails, if_true]
      exact .refl SameIdentity.refl _
    · simp only [answer, hstatement, if_true, hfails]
      exact hexecute _
  · simp only [answer, hstatement]
    exact hexecute _

end TransactionTable

theorem PostgresTransactionRepository.sends_query {P : DatabaseCall → Prop} (c : DatabaseCall) :
    @Prog.Sends Exn DatabaseCall DatabaseCall.Answer (no_index c.Answer) P (query c) ↔ P c :=
  Prog.sends_send c

/-- Every method but the save leaves the INSERT out. -/
theorem PostgresTransactionRepository.sends_method {m : TransactionRepositoryProtocol}
    (h : ∀ args, m ≠ .savePendingTransaction args) :
    (method m).Sends DatabaseCall.AddsNone := by
  cases m with
  | savePendingTransaction args => exact absurd rfl (h args)
  | updateTransactionStatus args =>
    refine .translate _ (.bind ((sends_query _).mpr trivial) fun found => ?_)
    cases found with
    | none => trivial
    | some model =>
      dsimp only
      split
      next => trivial
      next =>
        exact .bind ((sends_query _).mpr trivial) fun _ => .bind ((sends_query _).mpr trivial) fun _ =>
          .bind ((sends_query _).mpr trivial) fun _ => trivial
  | _ => exact .translate _ ((sends_query _).mpr trivial)

/-- The table is a store of rows. -/
def PostgresTransactionRepository.rowStore : RowStore PostgresTransactionRepository where
  rows := TransactionTable.rows
  lookup env idempotencyKey a t := by
    rw [postgres_findKey]
    split
    · exact ⟨rfl, Or.inr ⟨_, rfl⟩⟩
    · exact ⟨rfl, Or.inl rfl⟩
  save env args a t := by
    obtain ⟨hdraws, hcase⟩ := postgres_save env a t args
    have hdrawn : a.uuidDraws < (PostgresTransactionRepository.answer env
        (.savePendingTransaction args) (a, t)).2.1.uuidDraws := by omega
    cases hcase with
    | refused e answer same => exact .refused e answer (congrArg _ same)
    | unread _ put _ e answer => exact .stored _ _ hdrawn put (Or.inr ⟨e, answer⟩)
    | saved _ put _ answer => exact .stored _ _ hdrawn put (Or.inl answer)
  keeps env m a t h :=
    Prog.run_related (R := TransactionTable.Kept) (fun _ => .refl SameIdentity.refl _)
      TransactionTable.Kept.trans (fun _ hc => TransactionTable.answer_kept env hc)
      (PostgresTransactionRepository.sends_method h) (a, t)

/-! ## Programs -/

section Programs

variable {τ π : Type} {env : Env} {container : AppContainer τ π}
  (store : RowStore container.transactionRepository)

/-- One message: the identifiers stay issued, and the rows extend. An INSERT puts its row behind the
others under an id just drawn, and an UPDATE keeps the identity of its row. -/
theorem RowStore.handle_extends (m : Msg) {w : World τ π}
    (issued : RowsIssued env w.ambient (store.rows w.transactions)) :
    let w' := (handle env container m w).2
    RowsIssued env w'.ambient (store.rows w'.transactions) ∧
      (store.rows w.transactions).Extends SameIdentity (store.rows w'.transactions) := by
  intro w'
  have hforward : w.ambient.Forward w'.ambient := handle_forward env container m w
  have spared : w'.transactions = w.transactions →
      RowsIssued env w'.ambient (store.rows w'.transactions) ∧
        (store.rows w.transactions).Extends SameIdentity (store.rows w'.transactions) := by
    intro hsame
    rw [hsame]
    exact ⟨issued.forward hforward, .refl SameIdentity.refl _⟩
  cases m with
  | transactions m =>
    by_cases hsave : ∃ args, m = .savePendingTransaction args
    · obtain ⟨args, rfl⟩ := hsave
      cases store.save env args w.ambient w.transactions with
      | refused e answer same =>
        have hrows : store.rows w'.transactions = store.rows w.transactions := same
        rw [hrows]
        exact ⟨issued.forward hforward, .refl SameIdentity.refl _⟩
      | stored createdAt updatedAt drawn put =>
        have hrows : store.rows w'.transactions = _ := put
        rw [hrows]
        exact ⟨issued.put ⟨Nat.le_refl _, drawn⟩ args createdAt updatedAt,
          Keyed.extends_put_of_none SameIdentity.refl (issued.fresh (Nat.le_refl _))⟩
    · have hpaired := store.keeps env m w.ambient w.transactions fun args h => hsave ⟨args, h⟩
      exact ⟨(issued.forward hforward).paired (fun t u h => h.transactionId) hpaired,
        Keyed.Paired.extends hpaired⟩
  | provider m => cases m <;> exact spared rfl
  | _ => exact spared rfl

/-- A program only extends the rows, as each of its messages does. -/
theorem RowStore.run_extends {α : Type} (p : App α) {w : World τ π}
    (issued : RowsIssued env w.ambient (store.rows w.transactions)) :
    let w' := (Prog.run (handle env container) p w).2
    RowsIssued env w'.ambient (store.rows w'.transactions) ∧
      (store.rows w.transactions).Extends SameIdentity (store.rows w'.transactions) := by
  refine Prog.run_related (R := fun w w' : World τ π =>
    RowsIssued env w.ambient (store.rows w.transactions) →
      RowsIssued env w'.ambient (store.rows w'.transactions) ∧
        (store.rows w.transactions).Extends SameIdentity (store.rows w'.transactions))
    (fun w h => ⟨h, .refl SameIdentity.refl _⟩) (fun w w' w'' h h' hw => ?_)
    (fun m _ w h => store.handle_extends m h) (Prog.sends_true p) w issued
  obtain ⟨hw', hextends⟩ := h hw
  obtain ⟨hw'', hextends'⟩ := h' hw'
  exact ⟨hw'', hextends.trans (R := SameIdentity) (fun _ _ _ => SameIdentity.trans) hextends'⟩

/-- A key stays. -/
theorem HasKey.extends {idempotencyKey : String} {rows rows' : Transactions}
    (h : HasKey idempotencyKey rows) (extends_ : rows.Extends SameIdentity rows') :
    HasKey idempotencyKey rows' := by
  obtain ⟨t, ht, hkey⟩ := h
  obtain ⟨u, hu, htu⟩ := extends_.mem ht
  exact ⟨u, hu, htu.idempotencyKey.trans hkey⟩

/-! ## Pushes -/

/-- A lookup leaves the rows alone. -/
theorem RowStore.lookedUp_rows (idempotencyKey : String) (w : World τ π) :
    store.rows (w.lookedUp env container idempotencyKey).transactions = store.rows w.transactions :=
  congrArg store.rows (store.lookup env idempotencyKey w.ambient w.transactions).1

/-- Where a lookup finds nothing, no row has the key. -/
theorem RowStore.not_hasKey {idempotencyKey : String} {w : World τ π}
    (missing : (keyAnswer env container idempotencyKey w.store).1 = .ok none) :
    ¬ HasKey idempotencyKey (store.rows w.transactions) := by
  rcases (store.lookup env idempotencyKey w.ambient w.transactions).2 with hfound | ⟨e, hfailed⟩
  · exact keyMatch_eq_none.mp (Except.ok.inj (hfound.symm.trans missing))
  · cases hfailed.symm.trans missing

/-- The repository refuses to save the response to this push. -/
def RowStore.SaveRefused (env : Env) (request : InitiatePayment) (idempotencyKey : String)
    (response : PaymentInitiationResponse) (w : World τ π) : Prop :=
  let w₁ := (pushAnswer env container request (w.lookedUp env container idempotencyKey)).2
  store.rows (saveAnswer env container request idempotencyKey response w₁.store).2.2 =
    store.rows w.transactions

/-- The pending record of a push is stored, and was not there before. -/
def Recorded (idempotencyKey checkoutRequestId : String) (rows rows' : Transactions) : Prop :=
  ∃ t ∈ rows'.values, t ∉ rows.values ∧ t.status = .pending ∧
    t.idempotencyKey = some idempotencyKey ∧ t.checkoutRequestId = checkoutRequestId

/-- A save behind an answered push is refused and raises, or adds a row with a key that was missing. -/
theorem RowStore.save_cases {request : InitiatePayment} {idempotencyKey : String}
    {response : PaymentInitiationResponse} {w w₁ : World τ π}
    {answer : Except Exn PendingTransaction} {s : Ambient × τ}
    (missing : (keyAnswer env container idempotencyKey w.store).1 = .ok none)
    (pushed : pushAnswer env container request (w.lookedUp env container idempotencyKey) =
      (.ok response, w₁))
    (saved : saveAnswer env container request idempotencyKey response w₁.store = (answer, s)) :
    let rows := store.rows w.transactions
    (store.SaveRefused env request idempotencyKey response w ∧ store.rows s.2 = rows ∧
      ∃ e, answer = .error e) ∨
    (¬ store.SaveRefused env request idempotencyKey response w ∧
      Recorded idempotencyKey response.checkoutRequestId rows (store.rows s.2)) := by
  intro rows
  have hrefused : store.SaveRefused env request idempotencyKey response w ↔
      store.rows s.2 = rows := by
    unfold RowStore.SaveRefused
    simp only [pushed, saved]
    exact Iff.rfl
  have hrows : store.rows w₁.transactions = rows := by
    rw [(pushAnswer_spares env container pushed).1]
    exact store.lookedUp_rows idempotencyKey w
  have hcase := store.save env
    (PaymentService.saveArguments request idempotencyKey response) w₁.ambient w₁.transactions
  have hanswer : container.transactionRepository.answer env (.savePendingTransaction
      (PaymentService.saveArguments request idempotencyKey response))
        (w₁.ambient, w₁.transactions) = (answer, s) := saved
  rw [hanswer, hrows] at hcase
  cases hcase with
  | refused e answer same => exact Or.inl ⟨hrefused.mpr same, same, e, answer⟩
  | stored createdAt updatedAt _ put =>
    have hmem : (PaymentService.saveArguments request idempotencyKey response).record
        (env.uuid4 w₁.ambient.uuidDraws) createdAt updatedAt ∈ (store.rows s.2).values := by
      rw [put]
      exact Keyed.mem_values_put.mpr (Or.inl rfl)
    have hnew : (PaymentService.saveArguments request idempotencyKey response).record
        (env.uuid4 w₁.ambient.uuidDraws) createdAt updatedAt ∉ rows.values :=
      fun h => store.not_hasKey missing ⟨_, h, rfl⟩
    refine Or.inr ⟨fun h => hnew ?_, _, hmem, hnew, rfl, rfl, rfl⟩
    rw [← hrefused.mp h]
    exact hmem

/-- What a push does that the provider answers: its save is refused and raises, or it records a
pending payment and says so, unless the save raises behind the record. -/
theorem RowStore.push_answered {request : InitiatePayment} {idempotencyKey : String}
    {response : PaymentInitiationResponse} {w : World τ π}
    (missing : (keyAnswer env container idempotencyKey w.store).1 = .ok none)
    (answered : (pushAnswer env container request
      (w.lookedUp env container idempotencyKey)).1 = .ok response) :
    let r := Prog.run (handle env container)
      (PaymentService.executeStkPush request idempotencyKey) w
    let rows := store.rows w.transactions
    let rows' := store.rows r.2.transactions
    (store.SaveRefused env request idempotencyKey response w ∧ rows' = rows ∧
      (∃ e, r.1 = .error e) ∧ r.2.metrics = w.metrics) ∨
    (¬ store.SaveRefused env request idempotencyKey response w ∧
      Recorded idempotencyKey response.checkoutRequestId rows rows' ∧
      ((∃ e, r.1 = .error e) ∨
        ∃ t, r.1 = .ok (PaymentService.initiated t idempotencyKey response))) := by
  intro r rows rows'
  cases push_cases env container request idempotencyKey w with
  | unread e failed => cases failed.symm.trans missing
  | existing t found => cases found.symm.trans missing
  | declined e _ w₁ raised =>
    rw [raised] at answered
    cases answered
  | lost response' _ w₁ pushed e s failed raised after =>
    rw [pushed] at answered
    cases answered
    have hafter : rows' = store.rows s.2 := congrArg (fun v => store.rows v.transactions) after
    rcases store.save_cases missing pushed failed with ⟨hrefused, hsame, -⟩ | ⟨hstored, hrecorded⟩
    · refine Or.inl ⟨hrefused, hafter.trans hsame, ⟨e, raised⟩, ?_⟩
      have hmetrics := congrArg (fun v : Except Exn PaymentInitiationResponse × World τ π =>
        v.2.metrics) pushed
      exact (congrArg World.metrics after).trans hmetrics.symm
    · exact Or.inr ⟨hstored, hafter ▸ hrecorded, Or.inl ⟨e, raised⟩⟩
  | recorded response' _ w₁ pushed t s saved answer after =>
    rw [pushed] at answered
    cases answered
    obtain ⟨events, after⟩ := after
    have hafter : rows' = store.rows s.2 := congrArg (fun v => store.rows v.transactions) after
    rcases store.save_cases missing pushed saved with ⟨-, -, e, herror⟩ | ⟨hstored, hrecorded⟩
    · cases herror
    · exact Or.inr ⟨hstored, hafter ▸ hrecorded, Or.inr ⟨t, answer⟩⟩

end Programs

end MpesaMcp
