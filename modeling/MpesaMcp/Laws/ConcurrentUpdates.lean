import Mathlib.Data.List.Pairwise
import MpesaMcp.Laws.CallbackRedelivery
import MpesaMcp.Library.Interleave

/-!
# Updates of one transaction side by side

`update_transaction_status` of the Postgres repository validates the transition on the row its SELECT
read, and commits an UPDATE by primary key. Between the two statements another update may commit: the
second UPDATE then overwrites a terminal row. `one_update_iff` says that a run keeps the first terminal
row, and lets one call succeed, exactly where no UPDATE comes upon a row that is terminal by then.
-/

set_option autoImplicit false

namespace MpesaMcp

open Library Python PostgresTransactionRepository

/-! ## The pool and the property -/

/-- Updates over one table. -/
abbrev UpdatePool :=
  Pool Exn DatabaseCall.Answer (Option PendingTransaction) (Ambient × TransactionTable)

/-- One program of the method for each call. -/
def concurrentUpdates (calls : List UpdateTransactionStatus) (s : Ambient × TransactionTable) :
    UpdatePool where
  state := s
  threads := calls.map updateTransactionStatus

/-- A call of `update_transaction_status`, on its way. -/
abbrev UpdateCall := Prog Exn DatabaseCall.Answer (Option PendingTransaction)

/-- The call has committed: it reads its row back, or has returned it. -/
def Succeeded (p : UpdateCall) : Prop :=
  (∃ id, p.next? = some (.refresh id)) ∨ ∃ t, p = .ret (some t)

/-- The call raised `TransactionStateTransitionError`. -/
def RaisedTransition (p : UpdateCall) : Prop :=
  ∃ fromStatus toStatus, p = .raise (.transactionStateTransition fromStatus toStatus)

/-- At most one call succeeds, the others that have ended raised a transition error, and from the first
terminal commit on the row stays as it is. -/
structure OneUpdate (checkoutRequestId : String) (run : List (Step UpdatePool Nat Unit))
    (after : UpdatePool) : Prop where
  once : ∀ (i j : Nat) p q, after.threads[i]? = some p → after.threads[j]? = some q →
    Succeeded p → Succeeded q → i = j
  rejected : ∀ (i : Nat) p, after.threads[i]? = some p → p.Ended →
    Succeeded p ∨ RaisedTransition p
  kept : ∀ history st later, run = history ++ st :: later → ∀ row,
    firstMatch checkoutRequestId st.after.state.2.rows = some row → row.status.Terminal →
      ∀ next ∈ later, firstMatch checkoutRequestId next.after.state.2.rows = some row

/-- An UPDATE comes upon a row that is terminal. -/
def Overwrites (st : Step UpdatePool Nat Unit) : Prop :=
  ∃ loaded assigned row, st.before.message? st.input = some (.commitUpdate loaded assigned) ∧
    st.before.state.2.rows.get loaded.transactionId = some row ∧ row.status.Terminal

/-- What an update writes fits the columns. -/
structure Fits (args : UpdateTransactionStatus) : Prop where
  resultCode : Int32Range args.resultCode
  resultDescription : args.resultDescription.length ≤ 255
  mpesaReceiptNumber : ∀ number ∈ args.mpesaReceiptNumber, number.length ≤ 128

/-! ## The table -/

/-- What an update writes over a row fits the columns with it. -/
theorem columnsHold_writeChanges {args : UpdateTransactionStatus} (fits : Fits args)
    (loaded : PendingTransaction) (status : TransactionStatus) (now : Datetime)
    {current : PendingTransaction} (h : ColumnsHold current) :
    ColumnsHold (writeChanges loaded (args.apply loaded status now) current) := by
  refine { h with resultCode := ?_, resultDescription := ?_, mpesaReceiptNumber := ?_ }
  · intro code hcode
    simp only [writeChanges] at hcode
    split at hcode
    · exact h.resultCode code hcode
    · cases hcode
      exact fits.resultCode
  · intro text htext
    simp only [writeChanges] at htext
    split at htext
    · exact h.resultDescription text htext
    · cases htext
      exact fits.resultDescription
  · intro number hnumber
    simp only [writeChanges] at hnumber
    split at hnumber
    · exact h.mpesaReceiptNumber number hnumber
    · exact fits.mpesaReceiptNumber number hnumber

/-! ## One call, statement by statement -/

/-- A call that has read the row and is about to read the clock. -/
def timing (args : UpdateTransactionStatus) (model : PendingTransaction) (status : TransactionStatus) :
    UpdateCall :=
  Prog.translate integrityOrUnavailable (do
    let now ← query .now
    query (.commitUpdate model (args.apply model status now))
    some <$> query (.refresh model.transactionId))

/-- A call that is about to commit. -/
def committing (args : UpdateTransactionStatus) (model : PendingTransaction)
    (status : TransactionStatus) (now : Datetime) : UpdateCall :=
  Prog.translate integrityOrUnavailable (do
    query (.commitUpdate model (args.apply model status now))
    some <$> query (.refresh model.transactionId))

/-- A call that has committed and is about to read its row back. -/
def readingBack (transactionId : String) : UpdateCall :=
  Prog.translate integrityOrUnavailable (some <$> query (.refresh transactionId))

section Advance

variable {env : Env} {a : Ambient} {t : TransactionTable}

/-- The SELECT of a call, and the validation behind it: it is the status of this moment that is
validated, and the UPDATE comes later. -/
theorem advance_select {args : UpdateTransactionStatus} {row : PendingTransaction}
    (found : firstMatch args.checkoutRequestId t.rows = some row)
    (answered : env.databaseFails a.statements = false) :
    (updateTransactionStatus args).advance (TransactionTable.answer env) (a, t) =
      (match validateTransition row.status args.status with
        | .error _ => .raise (.transactionStateTransition row.status.value args.status)
        | .ok status => timing args row status, (a.after 1, t)) := by
  rw [updateTransactionStatus, updateRow, query, Prog.advance_translate, Prog.advance_send_bind,
    answer_select env a t answered, found]
  dsimp only
  cases hvalid : validateTransition row.status args.status with
  | error e =>
    rw [validateTransition_error hvalid]
    rfl
  | ok status => rfl

theorem advance_timing (args : UpdateTransactionStatus) (model : PendingTransaction)
    (status : TransactionStatus) :
    ∃ now a', (timing args model status).advance (TransactionTable.answer env) (a, t) =
      (committing args model status now, (a', t)) := by
  rw [timing, Prog.advance_translate, query, Prog.advance_send_bind]
  exact ⟨_, _, rfl⟩

/-- The commit of a call, over whatever its row is by then: the UPDATE names the row by its primary key
and asks for no status. -/
theorem advance_committing {args : UpdateTransactionStatus} (fits : Fits args)
    {model current : PendingTransaction} (status : TransactionStatus) (now : Datetime)
    (stored : t.rows.get model.transactionId = some current)
    (answered : env.databaseFails a.statements = false) :
    ∃ a' t', (committing args model status now).advance (TransactionTable.answer env) (a, t) =
        (readingBack model.transactionId, (a', t')) ∧
      t'.rows = t.rows.put (writeChanges model (args.apply model status now) current) := by
  have hfits := columnsHold_writeChanges fits model status now
    (t.columns current (Keyed.mem_of_get stored))
  obtain ⟨t', hupdate, hput⟩ := TransactionTable.update_ok stored hfits
  have hanswer : TransactionTable.answer env
      (.commitUpdate model (args.apply model status now)) (a, t) = (.ok (), (a.after 1, t')) := by
    rw [answer_statement env a t rfl, answered]
    simp only [TransactionTable.execute, hupdate]
    rfl
  refine ⟨a.after 1, t', ?_, hput⟩
  rw [committing, Prog.advance_translate, query, Prog.advance_send_bind, hanswer]
  rfl

theorem advance_readingBack {id : String} {row : PendingTransaction} (stored : t.rows.get id = some row)
    (answered : env.databaseFails a.statements = false) :
    (readingBack id).advance (TransactionTable.answer env) (a, t) =
      (.ret (some row), (a.after 1, t)) := by
  have hanswer := answer_refresh env a t stored
  rw [answered] at hanswer
  rw [readingBack, Prog.advance_translate, Prog.advance_map, query, Prog.advance_send, hanswer]
  rfl

end Advance

/-! ## The phases of a pool -/

section Phases

variable (row₀ : PendingTransaction)

/-- A call that has not committed: whoever validated did so on the row as it was at the start. -/
inductive Uncommitted : UpdateCall → Prop
  | waiting (args : UpdateTransactionStatus)
      (about : args.checkoutRequestId = row₀.checkoutRequestId) (fits : Fits args) :
      Uncommitted (updateTransactionStatus args)
  | timing (args : UpdateTransactionStatus) (fits : Fits args) (status : TransactionStatus)
      (valid : validateTransition row₀.status args.status = .ok status) :
      Uncommitted (timing args row₀ status)
  | committing (args : UpdateTransactionStatus) (fits : Fits args) (status : TransactionStatus)
      (valid : validateTransition row₀.status args.status = .ok status) (now : Datetime) :
      Uncommitted (committing args row₀ status now)
  | refused (fromStatus toStatus : String) :
      Uncommitted (.raise (.transactionStateTransition fromStatus toStatus))

/-- A call that has committed. -/
inductive Committed : UpdateCall → Prop
  | reading : Committed (readingBack row₀.transactionId)
  | done (t : PendingTransaction) : Committed (.ret (some t))

/-- How far the calls of a pool have come: none has committed, or the row is terminal; `twice` says that
an UPDATE overwrote it. -/
inductive UpdatePhase (twice : Prop) (pool : UpdatePool) : Prop
  | unwritten (stored : pool.state.2.rows.get row₀.transactionId = some row₀)
      (uncommitted : ∀ (i : Nat) p, pool.threads[i]? = some p → Uncommitted row₀ p) (once : ¬ twice)
  | written (row : PendingTransaction)
      (stored : pool.state.2.rows.get row₀.transactionId = some row)
      (about : row.checkoutRequestId = row₀.checkoutRequestId) (terminal : row.status.Terminal)
      (i : Nat) (p : UpdateCall) (present : pool.threads[i]? = some p) (first : Committed row₀ p)
      (others : ∀ (j : Nat) q, pool.threads[j]? = some q → Uncommitted row₀ q ∨ Committed row₀ q)
      (verdict : (twice ∧ ∃ j q, j ≠ i ∧ pool.threads[j]? = some q ∧ Committed row₀ q) ∨
        (¬ twice ∧ ∀ (j : Nat) q, j ≠ i → pool.threads[j]? = some q → Uncommitted row₀ q))

variable {row₀}

theorem Uncommitted.not_succeeded {p : UpdateCall} (h : Uncommitted row₀ p) : ¬ Succeeded p := by
  rintro (⟨id, hnext⟩ | ⟨t, ht⟩)
  · cases h <;> cases hnext
  · cases h <;> cases ht

theorem Committed.succeeded {p : UpdateCall} (h : Committed row₀ p) : Succeeded p := by
  cases h with
  | reading => exact Or.inl ⟨row₀.transactionId, rfl⟩
  | done t => exact Or.inr ⟨t, rfl⟩

theorem Committed.not_uncommitted {p : UpdateCall} (h : Committed row₀ p) : ¬ Uncommitted row₀ p :=
  fun h' => h'.not_succeeded h.succeeded

/-- A call that has ended without committing raised a transition error. -/
theorem Uncommitted.raised {p : UpdateCall} (h : Uncommitted row₀ p) (ended : p.Ended) :
    RaisedTransition p := by
  cases h with
  | refused fromStatus toStatus => exact ⟨fromStatus, toStatus, rfl⟩
  | waiting args about fits => cases ended
  | timing args fits status valid => cases ended
  | committing args fits status valid now => cases ended

/-- A call moves without writing, and without committing. -/
theorem UpdatePhase.quiet {twice : Prop} {pool pool' : UpdatePool} {i : Nat} {p q : UpdateCall}
    (phase : UpdatePhase row₀ twice pool) (present : pool.threads[i]? = some p)
    (self : pool'.threads[i]? = some q)
    (others : ∀ j, j ≠ i → pool'.threads[j]? = pool.threads[j]?)
    (same : pool'.state.2.rows = pool.state.2.rows)
    (uncommitted : Uncommitted row₀ p → Uncommitted row₀ q)
    (committed : Committed row₀ p → Committed row₀ q) : UpdatePhase row₀ twice pool' := by
  -- where each program of the new pool comes from
  have origin : ∀ (j : Nat) r, pool'.threads[j]? = some r → ∃ r', pool.threads[j]? = some r' ∧
      (Uncommitted row₀ r' → Uncommitted row₀ r) ∧ (Committed row₀ r' → Committed row₀ r) := by
    intro j r hr
    by_cases hj : j = i
    · subst hj
      cases self.symm.trans hr
      exact ⟨p, present, uncommitted, committed⟩
    · exact ⟨r, (others j hj).symm.trans hr, id, id⟩
  have destination : ∀ (j : Nat) r, pool.threads[j]? = some r → ∃ r', pool'.threads[j]? = some r' ∧
      (Committed row₀ r → Committed row₀ r') := by
    intro j r hr
    by_cases hj : j = i
    · subst hj
      cases present.symm.trans hr
      exact ⟨q, self, committed⟩
    · exact ⟨r, (others j hj).trans hr, id⟩
  cases phase with
  | unwritten stored working once =>
    refine .unwritten (same ▸ stored) (fun j r hr => ?_) once
    obtain ⟨r', hr', hkeeps, -⟩ := origin j r hr
    exact hkeeps (working j r' hr')
  | written row stored about terminal k r hk first all verdict =>
    obtain ⟨r', hr', hfirst⟩ := destination k r hk
    refine .written row (same ▸ stored) about terminal k r' hr' (hfirst first) (fun j s hs => ?_) ?_
    · obtain ⟨s', hs', hkeeps, hkeeps'⟩ := origin j s hs
      exact (all j s' hs').imp hkeeps hkeeps'
    · rcases verdict with ⟨htwice, j, s, hj, hs, hcommitted⟩ | ⟨honce, hrest⟩
      · obtain ⟨s', hs', hkeeps⟩ := destination j s hs
        exact Or.inl ⟨htwice, j, s', hj, hs', hkeeps hcommitted⟩
      · refine Or.inr ⟨honce, fun j s hj hs => ?_⟩
        obtain ⟨s', hs', hkeeps, -⟩ := origin j s hs
        exact hkeeps (hrest j s' hj hs')

/-- The row of the calls, as it is by now. -/
theorem UpdatePhase.row {twice : Prop} {pool : UpdatePool} (phase : UpdatePhase row₀ twice pool) :
    ∃ row, pool.state.2.rows.get row₀.transactionId = some row ∧
      row.checkoutRequestId = row₀.checkoutRequestId ∧ (row = row₀ ∨ row.status.Terminal) := by
  cases phase with
  | unwritten stored => exact ⟨row₀, stored, rfl, Or.inl rfl⟩
  | written row stored about terminal => exact ⟨row, stored, about, Or.inr terminal⟩

/-- What a commit leaves of its row: the same identity, and a terminal status. -/
theorem written_row {args : UpdateTransactionStatus} {status : TransactionStatus}
    (valid : validateTransition row₀.status args.status = .ok status) (now : Datetime)
    (row : PendingTransaction) :
    let written := writeChanges row₀ (args.apply row₀ status now) row
    written.transactionId = row.transactionId ∧
      written.checkoutRequestId = row.checkoutRequestId ∧ written.status.Terminal := by
  obtain ⟨hpending, hterminal, -⟩ := validateTransition_ok_iff.mp valid
  refine ⟨rfl, rfl, ?_⟩
  show TransactionStatus.Terminal (if status = row₀.status then row.status else status)
  rw [if_neg (hpending ▸ hterminal)]
  exact hterminal

/-- The first commit. -/
theorem UpdatePhase.commit_first {pool pool' : UpdatePool} {i : Nat}
    (uncommitted : ∀ (j : Nat) p, pool.threads[j]? = some p → Uncommitted row₀ p)
    {row : PendingTransaction}
    (stored : pool'.state.2.rows.get row₀.transactionId = some row)
    (about : row.checkoutRequestId = row₀.checkoutRequestId) (terminal : row.status.Terminal)
    (self : pool'.threads[i]? = some (readingBack row₀.transactionId))
    (others : ∀ j, j ≠ i → pool'.threads[j]? = pool.threads[j]?) {twice : Prop} (once : ¬ twice) :
    UpdatePhase row₀ twice pool' := by
  have hrest : ∀ (j : Nat) q, j ≠ i → pool'.threads[j]? = some q → Uncommitted row₀ q :=
    fun j q hj hq => uncommitted j q ((others j hj).symm.trans hq)
  refine .written row stored about terminal i _ self .reading (fun j q hq => ?_) (Or.inr ⟨once, hrest⟩)
  by_cases hj : j = i
  · subst hj
    cases self.symm.trans hq
    exact Or.inr .reading
  · exact Or.inl (hrest j q hj hq)

/-- A commit over a terminal row. -/
theorem UpdatePhase.commit_again {pool pool' : UpdatePool} {i k : Nat} {p q : UpdateCall}
    (hi : pool.threads[i]? = some p) (uncommitted : Uncommitted row₀ p)
    (hk : pool.threads[k]? = some q) (first : Committed row₀ q)
    (all : ∀ (j : Nat) r, pool.threads[j]? = some r → Uncommitted row₀ r ∨ Committed row₀ r)
    {row : PendingTransaction} (stored : pool'.state.2.rows.get row₀.transactionId = some row)
    (about : row.checkoutRequestId = row₀.checkoutRequestId) (terminal : row.status.Terminal)
    (self : pool'.threads[i]? = some (readingBack row₀.transactionId))
    (others : ∀ j, j ≠ i → pool'.threads[j]? = pool.threads[j]?) {twice : Prop} (again : twice) :
    UpdatePhase row₀ twice pool' := by
  have hne : i ≠ k := by
    rintro rfl
    cases hi.symm.trans hk
    exact first.not_uncommitted uncommitted
  refine .written row stored about terminal k q ((others k (Ne.symm hne)).trans hk) first
    (fun j r hr => ?_) (Or.inl ⟨again, i, _, hne, self, .reading⟩)
  by_cases hj : j = i
  · subst hj
    cases self.symm.trans hr
    exact Or.inr .reading
  · exact all j r ((others j hj).symm.trans hr)

/-- The commit of a call: the first one moves a pending row, a later one comes upon a terminal row. -/
theorem UpdatePhase.step_committing {env : Env} {twice : Prop} {pool : UpdatePool} {i : Nat}
    (phase : UpdatePhase row₀ twice pool)
    (answered : env.databaseFails pool.state.1.statements = false) {args : UpdateTransactionStatus}
    {status : TransactionStatus} {now : Datetime}
    (hi : pool.threads[i]? = some (committing args row₀ status now)) (fits : Fits args)
    (valid : validateTransition row₀.status args.status = .ok status) :
    let st := stepAt (Pool.step (TransactionTable.answer env)) pool i
    UpdatePhase row₀ (twice ∨ Overwrites st) st.after ∧
      (st.after.state.2.rows = pool.state.2.rows ∨ Overwrites st ∨
        (row₀.status = .pending ∧ pool.state.2.rows.get row₀.transactionId = some row₀)) := by
  intro st
  have hmessage : st.before.message? st.input = (committing args row₀ status now).next? :=
    Pool.message?_of_some hi
  obtain ⟨row, hstored, habout, -⟩ := phase.row
  obtain ⟨a', t', hadvance, hput⟩ := advance_committing fits status now hstored answered
  obtain ⟨hstate, hself, hothers⟩ := Pool.step_of_some _ hi hadvance
  obtain ⟨hid, hcheckout, hterminal⟩ := written_row valid now row
  have hrows : st.after.state.2.rows = _ :=
    (congrArg (fun s : Ambient × TransactionTable => s.2.rows) hstate).trans hput
  have hstored' : st.after.state.2.rows.get row₀.transactionId =
      some (writeChanges row₀ (args.apply row₀ status now) row) := by
    rw [hrows]
    exact Keyed.get_put_of_eq _ (hid.trans (Keyed.key_of_get hstored))
  cases phase with
  | unwritten stored uncommitted once =>
    cases stored.symm.trans hstored
    have hpending := (validateTransition_ok_iff.mp valid).1
    have hfirst : ¬ Overwrites st := by
      rintro ⟨loaded, assigned, row, hasks, hgot, terminal⟩
      cases hmessage.symm.trans hasks
      cases stored.symm.trans hgot
      exact terminal hpending
    rw [or_iff_left hfirst]
    exact ⟨.commit_first uncommitted hstored' hcheckout hterminal hself hothers once,
      Or.inr (Or.inr ⟨hpending, stored⟩)⟩
  | written row' stored _ terminal k q hk first all =>
    cases stored.symm.trans hstored
    have hoverwrites : Overwrites st :=
      ⟨row₀, args.apply row₀ status now, row, hmessage, stored, terminal⟩
    exact ⟨.commit_again hi (.committing args fits status valid now) hk first all hstored'
      (hcheckout.trans habout) hterminal hself hothers (Or.inr hoverwrites),
      Or.inr (Or.inl hoverwrites)⟩

/-- A message that is no UPDATE leaves the rows, and the calls where they are, so the phase stays. -/
theorem UpdatePhase.step_quiet {env : Env} {twice : Prop} {pool : UpdatePool} {i : Nat}
    {p q : UpdateCall} {s : Ambient × TransactionTable} (phase : UpdatePhase row₀ twice pool)
    (hi : pool.threads[i]? = some p)
    (advances : p.advance (TransactionTable.answer env) pool.state = (q, s))
    (same : s.2.rows = pool.state.2.rows)
    (reads : ∀ loaded assigned, p.next? ≠ some (.commitUpdate loaded assigned))
    (uncommitted : Uncommitted row₀ p → Uncommitted row₀ q)
    (committed : Committed row₀ p → Committed row₀ q) :
    let st := stepAt (Pool.step (TransactionTable.answer env)) pool i
    UpdatePhase row₀ (twice ∨ Overwrites st) st.after ∧
      (st.after.state.2.rows = pool.state.2.rows ∨ Overwrites st ∨
        (row₀.status = .pending ∧ pool.state.2.rows.get row₀.transactionId = some row₀)) := by
  intro st
  obtain ⟨hstate, hself, hothers⟩ := Pool.step_of_some _ hi advances
  have hquiet : ¬ Overwrites st := by
    rintro ⟨loaded, assigned, row, hasks, -⟩
    exact reads loaded assigned ((Pool.message?_of_some hi).symm.trans hasks)
  have hrows : st.after.state.2.rows = pool.state.2.rows :=
    (congrArg (fun s : Ambient × TransactionTable => s.2.rows) hstate).trans same
  rw [or_iff_left hquiet]
  exact ⟨phase.quiet hi hself hothers hrows uncommitted committed, Or.inl hrows⟩

/-- What one step of a pool does: the rows stay, or the first commit moves a pending row, or an UPDATE
comes upon a terminal one. -/
theorem UpdatePhase.step {env : Env} {twice : Prop} {pool : UpdatePool} {i : Nat}
    (phase : UpdatePhase row₀ twice pool)
    (answered : env.databaseFails pool.state.1.statements = false) :
    let st := stepAt (Pool.step (TransactionTable.answer env)) pool i
    UpdatePhase row₀ (twice ∨ Overwrites st) st.after ∧
      (st.after.state.2.rows = pool.state.2.rows ∨ Overwrites st ∨
        (row₀.status = .pending ∧ pool.state.2.rows.get row₀.transactionId = some row₀)) := by
  intro st
  cases hi : pool.threads[i]? with
  | none =>
    have hafter : st.after = pool := Pool.step_of_none _ hi
    have hquiet : ¬ Overwrites st := by
      rintro ⟨loaded, assigned, row, hmessage, -⟩
      cases (Pool.message?_of_none hi).symm.trans hmessage
    rw [or_iff_left hquiet, hafter]
    exact ⟨phase, Or.inl rfl⟩
  | some p =>
    obtain ⟨row, hstored, habout, hrow⟩ := phase.row
    have hclass : Uncommitted row₀ p ∨ Committed row₀ p := by
      cases phase with
      | unwritten _ uncommitted => exact Or.inl (uncommitted i p hi)
      | written _ _ _ _ _ _ _ _ others => exact others i p hi
    rcases hclass with huncommitted | hcommitted
    · cases huncommitted with
      | waiting args about fits =>
        have hfound : firstMatch args.checkoutRequestId pool.state.2.rows = some row := by
          rw [about, ← habout]
          exact pool.state.2.firstMatch_of_get hstored
        refine phase.step_quiet hi (advance_select hfound answered) rfl (fun _ _ h => by cases h) (fun _ => ?_)
          fun h => absurd (.waiting args about fits) h.not_uncommitted
        cases hvalid : validateTransition row.status args.status with
        | error e => exact .refused _ _
        | ok status =>
          obtain rfl := hrow.resolve_right fun terminal =>
            terminal (validateTransition_ok_iff.mp hvalid).1
          exact .timing args fits status hvalid
      | timing args fits status valid =>
        obtain ⟨now, a', hadvance⟩ := @advance_timing env pool.state.1 pool.state.2 args row₀ status
        exact phase.step_quiet hi hadvance rfl (fun _ _ h => by cases h)
          (fun _ => .committing args fits status valid now)
          fun h => absurd (.timing args fits status valid) h.not_uncommitted
      | committing args fits status valid now =>
        exact phase.step_committing answered hi fits valid
      | refused fromStatus toStatus =>
        exact phase.step_quiet (q := .raise (.transactionStateTransition fromStatus toStatus))
          (s := pool.state) hi rfl rfl (fun _ _ h => by cases h) id id
    · cases hcommitted with
      | reading =>
        exact phase.step_quiet hi (advance_readingBack hstored answered) rfl
          (fun _ _ h => by cases h) (fun h => absurd h (Committed.reading).not_uncommitted)
          fun _ => .done row
      | done t =>
        exact phase.step_quiet (q := .ret (some t)) (s := pool.state) hi rfl rfl
          (fun _ _ h => by cases h) id id

end Phases

/-! ## The theorem -/

section Theorem

variable {env : Env} {calls : List UpdateTransactionStatus} {s : Ambient × TransactionTable}
  {checkoutRequestId : String} {row₀ : PendingTransaction}

/-- The statement of a step is answered. -/
def StatementAnswered (env : Env) (st : Step UpdatePool Nat Unit) : Prop :=
  env.databaseFails st.before.state.1.statements = false

/-- Along a run the pool is in a phase, which tells whether an UPDATE overwrote a terminal row; by
induction on the schedule. -/
theorem updatePhase_final (found : firstMatch checkoutRequestId s.2.rows = some row₀)
    (about : ∀ args ∈ calls, args.checkoutRequestId = checkoutRequestId)
    (fits : ∀ args ∈ calls, Fits args) (schedule : List Nat) :
    let step := Pool.step (TransactionTable.answer env)
    let run := trace step (concurrentUpdates calls s) schedule
    (∀ st ∈ run, StatementAnswered env st) →
      UpdatePhase row₀ (∃ st ∈ run, Overwrites st)
        (final step (concurrentUpdates calls s) schedule) := by
  intro step run
  obtain ⟨hstored, hcheckout⟩ := get_of_firstMatch found
  refine flagged_of (I := UpdatePhase row₀) ?_
    (fun twice pool i answered phase => (phase.step answered).1) schedule
  refine .unwritten hstored (fun i p hp => ?_) id
  obtain ⟨args, hargs, rfl⟩ := List.mem_map.mp (List.mem_of_getElem? hp)
  exact .waiting args ((about args hargs).trans hcheckout.symm) (fits args hargs)

/-- While nothing overwrites it, a terminal row stays: every other UPDATE finds a pending row, and
there is only this one under the id. -/
theorem kept_of_terminal {pool : UpdatePool} (phase : UpdatePhase row₀ False pool)
    (about : row₀.checkoutRequestId = checkoutRequestId) {row : PendingTransaction}
    (found : firstMatch checkoutRequestId pool.state.2.rows = some row) (terminal : row.status.Terminal)
    (schedule : List Nat) :
    let step := Pool.step (TransactionTable.answer env)
    (∀ st ∈ trace step pool schedule, StatementAnswered env st ∧ ¬ Overwrites st) →
      ∀ st ∈ trace step pool schedule,
        firstMatch checkoutRequestId st.after.state.2.rows = some row := by
  intro step
  induction schedule generalizing pool with
  | nil => exact fun _ st hst => absurd hst List.not_mem_nil
  | cons i schedule ih =>
    intro hquiet
    obtain ⟨hanswered, hkeeps⟩ := hquiet _ List.mem_cons_self
    obtain ⟨hphase, hrows⟩ := phase.step hanswered
    rw [false_or, eq_false hkeeps] at hphase
    have hsame : firstMatch checkoutRequestId (stepAt step pool i).after.state.2.rows = some row := by
      rcases hrows with hsame | hoverwrites | ⟨hpending, hstored⟩
      · exact hsame ▸ found
      · exact absurd hoverwrites hkeeps
      · have hfound := pool.state.2.firstMatch_of_get hstored
        rw [about] at hfound
        cases hfound.symm.trans found
        exact absurd hpending terminal
    intro st hst
    rcases List.mem_cons.mp hst with rfl | hst
    · exact hsame
    · exact ih hphase hsame (fun st hst => hquiet st (List.mem_cons_of_mem _ hst)) st hst

/-- **One update**: however the statements of concurrent calls on one transaction are interleaved, one
call at most succeeds and the first terminal row stays, exactly where no UPDATE comes upon a row that is
terminal by then. -/
theorem one_update_iff (found : firstMatch checkoutRequestId s.2.rows = some row₀)
    (about : ∀ args ∈ calls, args.checkoutRequestId = checkoutRequestId)
    (fits : ∀ args ∈ calls, Fits args) (schedule : List Nat) :
    let step := Pool.step (TransactionTable.answer env)
    let run := trace step (concurrentUpdates calls s) schedule
    (∀ st ∈ run, StatementAnswered env st) →
      (OneUpdate checkoutRequestId run (final step (concurrentUpdates calls s) schedule) ↔
        ∀ st ∈ run, ¬ Overwrites st) := by
  intro step run answered
  have hphase := updatePhase_final found about fits schedule answered
  constructor
  · intro h st hst hoverwrites
    cases hphase with
    | unwritten _ _ once => exact once ⟨st, hst, hoverwrites⟩
    | written row _ _ _ i p hi first _ verdict =>
      rcases verdict with ⟨-, j, q, hj, hq, hcommitted⟩ | ⟨once, -⟩
      · exact hj (h.once i j p q hi hq first.succeeded hcommitted.succeeded).symm
      · exact once ⟨st, hst, hoverwrites⟩
  · intro hquiet
    refine ⟨fun i j p q hp hq hi hj => ?_, fun i p hp hended => ?_,
      fun history st later hsplit row hrow hterminal => ?_⟩
    · cases hphase with
      | unwritten _ uncommitted => exact absurd hi (uncommitted i p hp).not_succeeded
      | written row _ _ _ k r hk first _ verdict =>
        rcases verdict with ⟨⟨st, hst, hoverwrites⟩, -⟩ | ⟨-, rest⟩
        · exact absurd hoverwrites (hquiet st hst)
        · have only : ∀ (l : Nat) r,
              (final step (concurrentUpdates calls s) schedule).threads[l]? = some r →
                Succeeded r → l = k := by
            intro l r hr hsucceeded
            by_contra hl
            exact (rest l r hl hr).not_succeeded hsucceeded
          exact (only i p hp hi).trans (only j q hq hj).symm
    · cases hphase with
      | unwritten _ uncommitted => exact Or.inr ((uncommitted i p hp).raised hended)
      | written _ _ _ _ _ _ _ _ others =>
        rcases others i p hp with huncommitted | hcommitted
        · exact Or.inr (huncommitted.raised hended)
        · exact Or.inl hcommitted.succeeded
    · have hmem : ∀ st' ∈ history ++ [st], st' ∈ run := by
        intro st' hst'
        rw [hsplit]
        simp only [List.mem_append, List.mem_cons, List.not_mem_nil, or_false] at hst' ⊢
        tauto
      obtain ⟨is₁, i, is₂, rfl, rfl, rfl, rfl⟩ := trace_split hsplit
      rw [← trace_snoc] at hmem
      have hbefore := updatePhase_final found about fits (is₁ ++ [i]) fun st hst =>
        answered st (hmem st hst)
      have hnone : ¬ ∃ st ∈ trace step (concurrentUpdates calls s) (is₁ ++ [i]), Overwrites st :=
        fun ⟨st, hst, hoverwrites⟩ => hquiet st (hmem st hst) hoverwrites
      rw [eq_false hnone, final_snoc] at hbefore
      refine kept_of_terminal hbefore (get_of_firstMatch found).2 hrow hterminal is₂
        fun next hnext => ?_
      have hrun : next ∈ run := by
        rw [hsplit]
        exact List.mem_append_right _ (List.mem_cons_of_mem _ hnext)
      exact ⟨answered next hrun, hquiet next hrun⟩

end Theorem

/-! ## Two callbacks -/

/-- A callback that completes the payment, and one that fails it. -/
def completeAndFail : List UpdateTransactionStatus := [
  { checkoutRequestId := "ws_CO_1"
    status := "completed"
    resultCode := 0
    resultDescription := "The service request is processed successfully."
    mpesaReceiptNumber := some "NLJ7RT61SV" },
  { checkoutRequestId := "ws_CO_1"
    status := "failed"
    resultCode := 1032
    resultDescription := "Request cancelled by user." }]

theorem tenShillings_columns : ColumnsHold tenShillings := by decide +kernel

/-- The two updates, over a table with the one transaction. -/
def twoUpdates : UpdatePool :=
  concurrentUpdates completeAndFail ({}, .single tenShillings tenShillings_columns)

/-- The row a call has returned. -/
def returnedRow : UpdateCall → Option PendingTransaction
  | .ret t => t
  | _ => none

theorem succeeded_of_returnedRow {p : UpdateCall} (h : (returnedRow p).isSome = true) :
    Succeeded p := by
  cases p with
  | ret t =>
    obtain ⟨t, rfl⟩ := Option.isSome_iff_exists.mp h
    exact Or.inr ⟨t, rfl⟩
  | _ => cases h

/-- Where both calls read the row before either commits, the second commit overwrites the first one. -/
theorem terminal_row_overwritten :
    let step := Pool.step (TransactionTable.answer .still)
    let run := trace step twoUpdates [0, 1, 0, 1, 0, 1, 0, 1]
    (∀ st ∈ run, StatementAnswered .still st) ∧
      ¬ OneUpdate "ws_CO_1" run (final step twoUpdates [0, 1, 0, 1, 0, 1, 0, 1]) := by
  intro step run
  refine ⟨fun st _ => rfl, fun h => ?_⟩
  have hreturned : ∀ i < 2, ((final step twoUpdates [0, 1, 0, 1, 0, 1, 0, 1]).threads[i]?.bind
      returnedRow).isSome = true := by decide +kernel
  have hboth : ∀ i < 2, ∃ p, (final step twoUpdates [0, 1, 0, 1, 0, 1, 0, 1]).threads[i]? = some p ∧
      Succeeded p := by
    intro i hi
    obtain ⟨t, ht⟩ := Option.isSome_iff_exists.mp (hreturned i hi)
    obtain ⟨p, hp, hreturns⟩ := Option.bind_eq_some_iff.mp ht
    exact ⟨p, hp, succeeded_of_returnedRow (Option.isSome_iff_exists.mpr ⟨t, hreturns⟩)⟩
  obtain ⟨p, hp, hp'⟩ := hboth 0 (by omega)
  obtain ⟨q, hq, hq'⟩ := hboth 1 (by omega)
  exact absurd (h.once 0 1 p q hp hq hp' hq') (by omega)

/-- One call behind the other. -/
theorem one_update_iff_serial :
    let step := Pool.step (TransactionTable.answer .still)
    let run := trace step twoUpdates [0, 0, 0, 0, 1]
    OneUpdate "ws_CO_1" run (final step twoUpdates [0, 0, 0, 0, 1]) ↔ ∀ st ∈ run, ¬ Overwrites st := by
  refine @one_update_iff .still completeAndFail _ "ws_CO_1" tenShillings rfl ?_ ?_ [0, 0, 0, 0, 1]
    fun st _ => rfl
  · intro args hargs
    rcases List.mem_cons.mp hargs with rfl | hargs
    · rfl
    · cases List.mem_singleton.mp hargs
      rfl
  · intro args hargs
    rcases List.mem_cons.mp hargs with rfl | hargs
    · exact ⟨by decide, by decide, by decide⟩
    · cases List.mem_singleton.mp hargs
      exact ⟨by decide, by decide, by decide⟩

end MpesaMcp
