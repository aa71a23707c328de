import MpesaMcp.Laws.Identity
import MpesaMcp.Laws.PaymentGating
import MpesaMcp.Laws.TransactionSteps

/-!
# The lifecycle of a transaction over whole runs

From an empty in-memory repository, a stored transaction keeps its identity for the rest of the run;
it leaves pending at most once and is frozen from then on. An operation that raises or refuses changes
nothing, and a checkout request id is processed at most once.

The invariant is that the identifiers in the store were drawn (`RowsIssued`), so that a save never
meets the identifier of a stored transaction. The first transaction with a checkout request id stays
the first.
-/

set_option autoImplicit false

namespace MpesaMcp

open Library Python StkCallbackHandler

/-! ## The property -/

/-- What may become of a transaction: nothing changes, or it leaves pending for a terminal status. -/
structure Evolves (t u : PendingTransaction) : Prop where
  identity : SameIdentity t u
  moved : u = t ∨ (t.status = .pending ∧ u.status.Terminal)

/-- How often a step processes a callback for this checkout request id. -/
def processedFor {π : Type} (checkoutRequestId : String) (st : AppStep Transactions π) : Nat :=
  if Applies checkoutRequestId st.output then 1 else 0

/-- The lifecycle of the stored transactions in a run. -/
structure TransactionLifecycle {π : Type} (run : List (AppStep Transactions π)) : Prop where
  /-- A stored transaction is in every later store, and only evolved. -/
  kept : ∀ history st later, run = history ++ st :: later → ∀ next ∈ st :: later, ∀ id t,
    st.before.transactions.get id = some t →
      ∃ u, next.after.transactions.get id = some u ∧ Evolves t u
  /-- A transaction is pending when it first appears. -/
  born : ∀ st ∈ run, ∀ id t, st.before.transactions.get id = none →
    st.after.transactions.get id = some t → t.status = .pending
  /-- A step that raises or refuses changes no transaction. -/
  refused : ∀ st ∈ run, Refused st.output → st.after.transactions = st.before.transactions
  /-- A checkout request id is processed at most once. -/
  once : ∀ checkoutRequestId, total (processedFor checkoutRequestId) run ≤ 1

/-! ## Evolution -/

namespace Evolves

theorem refl (t : PendingTransaction) : Evolves t t := ⟨.refl t, Or.inl rfl⟩

theorem trans (t u v : PendingTransaction) (h : Evolves t u) (h' : Evolves u v) : Evolves t v := by
  refine ⟨h.identity.trans h'.identity, ?_⟩
  rcases h.moved with rfl | ⟨hpending, hterminal⟩
  · exact h'.moved
  · rcases h'.moved with rfl | ⟨hpending', -⟩
    · exact Or.inr ⟨hpending, hterminal⟩
    · exact absurd hpending' hterminal

/-- An update of a pending transaction to a terminal status. -/
theorem apply (args : UpdateTransactionStatus) {t : PendingTransaction} (pending : t.status = .pending)
    {status : TransactionStatus} (terminal : status.Terminal) (now : Datetime) :
    Evolves t (args.apply t status now) :=
  ⟨.apply args t status now, Or.inr ⟨pending, terminal⟩⟩

/-- A terminal transaction is frozen. -/
theorem frozen {t u : PendingTransaction} (h : Evolves t u) (terminal : t.status.Terminal) :
    u = t :=
  h.moved.resolve_right fun ⟨hpending, _⟩ => terminal hpending

end Evolves

/-- The updated transaction is the first match where the transaction was. -/
theorem firstMatch_put {checkoutRequestId : String} {transactions : Transactions}
    {t : PendingTransaction} (found : firstMatch checkoutRequestId transactions = some t)
    (args : UpdateTransactionStatus) (status : TransactionStatus) (now : Datetime) :
    firstMatch checkoutRequestId (transactions.put (args.apply t status now)) =
      some (args.apply t status now) := by
  have hget : transactions.get (args.apply t status now).transactionId = some t :=
    Keyed.mem_values_iff.mp (List.mem_of_find?_eq_some found)
  have hput := Keyed.find?_put_of_agree hget
    (p := fun u => decide (u.checkoutRequestId = checkoutRequestId)) rfl
  refine hput.trans ?_
  show (firstMatch checkoutRequestId transactions).map _ = _
  rw [found]
  exact congrArg some (if_pos rfl)

/-! ## The invariant -/

variable {π : Type} {env : Env} (settings : Settings) (verifier : CallbackSourceVerifier)
  (provider : PaymentProvider π)

/-- One step: the identifiers stay issued, and the store extends. Records keep their place and their
identity, and a new one comes behind them, under an id that no other has. -/
theorem step_extends {w : World Transactions π}
    (issued : RowsIssued env w.ambient w.transactions) (op : Op) :
    let w' := (step env (.inMemory settings verifier provider) op w).2
    RowsIssued env w'.ambient w'.transactions ∧ w.transactions.Extends Evolves w'.transactions := by
  intro w'
  have forward : w.ambient.Forward w'.ambient := run_forward env _ _ w
  cases store_cases env settings verifier provider op w with
  | same same =>
    have hsame : w'.transactions = w.transactions := same
    rw [hsame]
    exact ⟨issued.forward forward, .refl Evolves.refl _⟩
  | saved args k drawn createdAt updatedAt put =>
    have hput : w'.transactions = _ := put
    rw [hput]
    exact ⟨issued.put drawn args createdAt updatedAt,
      Keyed.extends_put_of_none Evolves.refl (issued.fresh drawn.1)⟩
  | moved args t found pending status terminal now put =>
    have hput : w'.transactions = _ := put
    rw [hput]
    have hpaired : w.transactions.Paired Evolves
        (w.transactions.put (args.apply t status now)) :=
      Keyed.paired_put_of_some Evolves.refl (get_of_firstMatch found).1
        (.apply args pending terminal now)
    exact ⟨(issued.forward forward).paired (fun t u h => h.identity.transactionId) hpaired,
      hpaired.extends⟩

/-! ## Runs -/

theorem issued_start (state : π) :
    RowsIssued env (start Keyed.empty state : World Transactions π).ambient Keyed.empty :=
  fun _ h => absurd h List.not_mem_nil

theorem issued_final {w : World Transactions π} (issued : RowsIssued env w.ambient w.transactions)
    (ops : List Op) :
    let w' := final (step env (.inMemory settings verifier provider)) w ops
    RowsIssued env w'.ambient w'.transactions :=
  state_invariant (I := fun v : World Transactions π => RowsIssued env v.ambient v.transactions)
    issued (fun _ op h => (step_extends settings verifier provider h op).1) ops

/-- Every later store of a run extends the one it started from, by induction on the run and the
transitivity of growth. -/
theorem trace_extends {w : World Transactions π}
    (issued : RowsIssued env w.ambient w.transactions) {ops : List Op}
    {next : AppStep Transactions π}
    (hnext : next ∈ trace (step env (.inMemory settings verifier provider)) w ops) :
    w.transactions.Extends Evolves next.after.transactions := by
  induction ops generalizing w with
  | nil => cases hnext
  | cons op ops ih =>
    obtain ⟨hissued, hextends⟩ := step_extends settings verifier provider issued op
    rcases List.mem_cons.mp hnext with rfl | hnext
    · exact hextends
    · exact hextends.trans Evolves.trans (ih hissued hnext)

/-- The first transaction with this checkout request id is terminal. -/
def Processed (checkoutRequestId : String) (w : World Transactions π) : Prop :=
  ∃ t, firstMatch checkoutRequestId w.transactions = some t ∧ t.status.Terminal

/-- The first match of a checkout request id lasts. -/
theorem firstMatch_lasts {checkoutRequestId : String} {d d' : Transactions} {t : PendingTransaction}
    (extends_ : d.Extends Evolves d') (found : firstMatch checkoutRequestId d = some t) :
    ∃ u, firstMatch checkoutRequestId d' = some u ∧ Evolves t u :=
  extends_.find? (fun a b h => by rw [h.identity.checkoutRequestId]) found

theorem Processed.step {checkoutRequestId : String} {w : World Transactions π}
    (issued : RowsIssued env w.ambient w.transactions) (h : Processed checkoutRequestId w)
    (op : Op) :
    Processed checkoutRequestId (step env (.inMemory settings verifier provider) op w).2 := by
  obtain ⟨t, found, terminal⟩ := h
  obtain ⟨u, found', hevolves⟩ :=
    firstMatch_lasts (step_extends settings verifier provider issued op).2 found
  exact ⟨u, found', hevolves.frozen terminal ▸ terminal⟩

/-- A step processes an id only where it is not processed yet, and then it is: the first match is
pending before and terminal after, and a later match stays shadowed by it. -/
theorem processed_of_applies {checkoutRequestId : String} {w : World Transactions π} {op : Op}
    (applies : Applies checkoutRequestId
      (step env (.inMemory settings verifier provider) op w).1) :
    ¬ Processed checkoutRequestId w ∧
      Processed checkoutRequestId (step env (.inMemory settings verifier provider) op w).2 := by
  cases store_cases env settings verifier provider op w with
  | same _ quiet => exact absurd applies (quiet _)
  | saved _ _ _ _ _ _ _ quiet => exact absurd applies (quiet _)
  | moved args t found pending status terminal now put _ about =>
    cases about _ applies
    refine ⟨fun ⟨u, found', hterminal⟩ => ?_, ?_⟩
    · cases found.symm.trans found'
      exact hterminal pending
    · refine ⟨args.apply t status now, ?_, terminal⟩
      rw [put]
      exact firstMatch_put found args status now

/-- A transaction that a step stores under a new id is pending. -/
theorem born_pending {id : String} {w : World Transactions π} {op : Op} {t : PendingTransaction}
    (absent : w.transactions.get id = none)
    (stored : (step env (.inMemory settings verifier provider) op w).2.transactions.get id = some t) :
    t.status = .pending := by
  cases store_cases env settings verifier provider op w with
  | same same => cases (same ▸ stored : _ = some t).symm.trans absent
  | saved args k _ createdAt updatedAt put =>
    rw [put, Keyed.get_put] at stored
    split at stored
    next =>
      cases stored
      rfl
    next => cases stored.symm.trans absent
  | moved args u found _ status _ now put =>
    rw [put, Keyed.get_put] at stored
    split at stored
    next hid => cases (hid ▸ (get_of_firstMatch found).1 : _ = some u).symm.trans absent
    next => cases stored.symm.trans absent

/-- A refused operation stores nothing. -/
theorem refused_same {w : World Transactions π} {op : Op}
    (refused : Refused (step env (.inMemory settings verifier provider) op w).1) :
    (step env (.inMemory settings verifier provider) op w).2.transactions = w.transactions := by
  cases store_cases env settings verifier provider op w with
  | same same => exact same
  | saved _ _ _ _ _ _ accepted => exact absurd refused accepted
  | moved _ _ _ _ _ _ _ _ accepted => exact absurd refused accepted

/-- **Transaction lifecycle over whole runs.** From an empty in-memory repository, with any settings,
any source verifier and any provider: what is stored stays with its identity, is settled at most once
and then frozen, and a refusal changes nothing. -/
theorem transaction_lifecycle (env : Env) (state : π) (ops : List Op) :
    TransactionLifecycle (trace (step env (.inMemory settings verifier provider))
      (start Keyed.empty state) ops) where
  kept := by
    intro history st later hrun next hnext id t stored
    obtain ⟨before, op, after, -, -, hst, hlater⟩ := trace_split hrun
    have hissued : RowsIssued env
        (final (step env (.inMemory settings verifier provider)) (start Keyed.empty state)
          before).ambient _ :=
      issued_final settings verifier provider (issued_start state) before
    have hnext' : next ∈ trace (step env (.inMemory settings verifier provider))
        (final (step env (.inMemory settings verifier provider)) (start Keyed.empty state) before)
        (op :: after) := by
      rw [hlater, hst] at hnext
      exact hnext
    rw [hst] at stored
    exact (trace_extends settings verifier provider hissued hnext').get
      (fun a b h => h.identity.transactionId.symm) stored
  born := by
    intro st hst id t absent stored
    obtain ⟨before, op, after, -, rfl⟩ := mem_trace_split hst
    exact born_pending settings verifier provider absent stored
  refused := by
    intro st hst hrefused
    obtain ⟨before, op, after, -, rfl⟩ := mem_trace_split hst
    exact refused_same settings verifier provider hrefused
  once := by
    intro checkoutRequestId
    have stays : ∀ w : World Transactions π, ∀ op, RowsIssued env w.ambient w.transactions →
        Processed checkoutRequestId w →
        Processed checkoutRequestId (step env (.inMemory settings verifier provider) op w).2 :=
      fun w op issued h => h.step settings verifier provider issued op
    refine (total_le_one (C := fun st : AppStep Transactions π =>
      RowsIssued env st.before.ambient st.before.transactions) stays ?_ ?_ _ ops ?_).1
    · intro w op issued h
      exact if_neg fun happlies =>
        (processed_of_applies settings verifier provider happlies).1 h
    · intro w op issued hcost
      have happlies : Applies checkoutRequestId
          (step env (.inMemory settings verifier provider) op w).1 := by
        by_contra hnot
        exact hcost (if_neg hnot)
      exact ⟨if_pos happlies, (processed_of_applies settings verifier provider happlies).2⟩
    · intro st hst
      obtain ⟨before, op, after, -, rfl⟩ := mem_trace_split hst
      exact issued_final settings verifier provider (issued_start state) before

end MpesaMcp
