import MpesaMcp.Laws.PaymentGating

/-!
# Decided approvals

A request that is approved, rejected or expired is decided. `reject_request` does not look at the
status it finds, so it rejects decided requests too; no other operation changes one. The decisions of
a run are therefore final exactly where every rejection in it found its request pending, or found none
(`decisions_final_iff`).
-/

set_option autoImplicit false

namespace MpesaMcp

open Library Python

open ApprovalRequest (Move)

variable {τ π : Type}

/-- The step answers about the request with something else than that it is blocked. -/
def NewDecision (st : AppStep τ π) (approvalId : String) : Prop :=
  match st.input, st.output with
  | .approveRequest id _, .ok (.approval response) => id = approvalId ∧ response.status ≠ .blocked
  | .rejectRequest id, .ok (.approval response) => id = approvalId ∧ response.status ≠ .blocked
  | .executeApprovedPayment id _, .ok (.execution response) =>
    id = approvalId ∧ response.status ≠ .blocked
  | _, _ => False

/-- Once a request is decided, it stays as it is and no operation on it answers a new decision. -/
def DecisionsFinal (run : List (AppStep τ π)) : Prop :=
  ∀ history st later, run = history ++ st :: later → ∀ approvalId a,
    st.before.approvals.get approvalId = some a → a.status ≠ .pending →
      ∀ next ∈ st :: later, next.after.approvals.get approvalId = some a ∧
        ¬ NewDecision next approvalId

/-- A rejection in this step found its request pending, or found none. -/
def RejectsPending (st : AppStep τ π) : Prop :=
  ∀ approvalId, st.input = .rejectRequest approvalId → ∀ a,
    st.before.approvals.get approvalId = some a → a.status = .pending

variable {env : Env} {container : AppContainer τ π}

/-- A step whose rejection is checked leaves every decided request as it is. -/
theorem decided_unchanged {approvalId : String} {a : ApprovalRequest} {w : World τ π} {op : Op}
    (fresh : ¬ DecidedIn (env.uuid4 w.ambient.uuidDraws) w)
    (checked : RejectsPending (stepAt (step env container) w op))
    (stored : w.approvals.get approvalId = some a) (decided : a.status ≠ .pending) :
    (step env container op w).2.approvals.get approvalId = some a := by
  cases step_cases env container op w with
  | moved moves _ =>
    rcases moves approvalId with hsame | ⟨b, c, hb, _, ⟨k, move⟩, rejects⟩
    · exact hsame.trans stored
    · cases hb.symm.trans stored
      obtain ⟨now, rfl⟩ := move.of_decided decided
      have hop := rejects (by simp)
      exact absurd (checked _ hop a (Keyed.key_of_get stored ▸ stored)) decided
  | filed _ _ _ _ _ _ approval drawn _ _ _ put _ _ =>
    have hne : approvalId ≠ approval.approvalId := fun hid =>
      fresh ⟨a, (hid.trans drawn) ▸ stored, decided⟩
    rw [put, Keyed.get_put_of_ne _ hne]
    exact stored
  | paid _ _ _ _ _ _ same _ => exact same ▸ stored
  | executed id operatorId _ b hb pending _ _ _ _ put _ =>
    have hne : approvalId ≠ id := by
      rintro rfl
      cases hb.symm.trans stored
      exact decided pending
    have hkey : (b.approvedBy operatorId (env.clock (w.ambient.clockReads + 2))).approvalId = id :=
      Keyed.key_of_get (a := b) hb
    rw [put, Keyed.get_put_of_ne _ (hkey ▸ hne)]
    exact stored

/-- An operation on a decided request other than a rejection answers that it is blocked. -/
theorem decided_blocked {approvalId : String} {a : ApprovalRequest} {w : World τ π} {op : Op}
    (checked : RejectsPending (stepAt (step env container) w op))
    (stored : w.approvals.get approvalId = some a) (decided : a.status ≠ .pending) :
    ¬ NewDecision (stepAt (step env container) w op) approvalId := by
  intro hnew
  cases op with
  | approveRequest id operatorId =>
    obtain ⟨response, w', hrun, hcase⟩ := review_cases env container id operatorId w
    simp only [NewDecision, stepAt, step, program, Prog.run_map, hrun, Except.map] at hnew
    obtain ⟨rfl, hstatus⟩ := hnew
    cases hcase with
    | absent missing => exact absurd (missing.symm.trans stored) (by simp)
    | refused _ _ _ answer => exact hstatus answer.1
    | expired b hb pending => cases hb.symm.trans stored; exact decided pending
    | reviewed b hb pending => cases hb.symm.trans stored; exact decided pending
    | approved b hb pending => cases hb.symm.trans stored; exact decided pending
  | rejectRequest id =>
    have hid : id = approvalId := by
      obtain ⟨response, w', hrun, -⟩ := reject_cases env container id w
      simp only [NewDecision, stepAt, step, program, Prog.run_map, hrun, Except.map] at hnew
      exact hnew.1
    subst hid
    exact decided (checked _ rfl a stored)
  | executeApprovedPayment id operatorId =>
    obtain ⟨output, w', hrun, hcase⟩ := execution_cases env container id operatorId w
    simp only [NewDecision, stepAt, step, program, Prog.run_map, hrun] at hnew
    cases output with
    | error e => exact hnew
    | ok response =>
      obtain ⟨rfl, hstatus⟩ := hnew
      cases hcase with
      | absent missing => exact absurd (missing.symm.trans stored) (by simp)
      | refused _ _ _ answer =>
        obtain ⟨r, hr, hblocked⟩ := answer
        cases hr
        exact hstatus hblocked
      | expired b hb pending => cases hb.symm.trans stored; exact decided pending
      | reviewed b hb pending => cases hb.symm.trans stored; exact decided pending
      | approved b hb pending => cases hb.symm.trans stored; exact decided pending
  | _ => exact hnew

/-- From a state on whose requests are filed, a decided request lasts to the end of the run. -/
theorem decided_lasts {approvalId : String} {a : ApprovalRequest} {history : List (AppStep τ π)}
    {w : World τ π} (ops : List Op) (invariant : GatingInvariant env history w)
    (checked : ∀ st ∈ trace (step env container) w ops, RejectsPending st)
    (stored : w.approvals.get approvalId = some a) (decided : a.status ≠ .pending) :
    ∀ st ∈ trace (step env container) w ops, st.after.approvals.get approvalId = some a ∧
      ¬ NewDecision st approvalId := by
  induction ops generalizing history w with
  | nil => exact fun _ h => nomatch h
  | cons op ops ih =>
    have hop := checked _ List.mem_cons_self
    have hafter := decided_unchanged invariant.fresh hop stored decided
    intro st hst
    rcases List.mem_cons.mp hst with rfl | hst
    · exact ⟨hafter, decided_blocked hop stored decided⟩
    · exact ih invariant.step (fun st h => checked st (List.mem_cons_of_mem _ h)) hafter st hst

/-- A rejection of a decided request answers that it is rejected. -/
theorem reject_decided {approvalId : String} {a : ApprovalRequest} {w : World τ π}
    (stored : w.approvals.get approvalId = some a) (decided : a.status ≠ .pending) :
    NewDecision (stepAt (step env container) w (.rejectRequest approvalId)) approvalId := by
  obtain ⟨response, w', hrun, hcase⟩ := reject_cases env container approvalId w
  simp only [NewDecision, stepAt, step, program, Prog.run_map, hrun, Except.map, true_and]
  cases hcase with
  | absent missing => exact absurd (missing.symm.trans stored) (by simp)
  | expired b hb pending => cases hb.symm.trans stored; exact absurd pending decided
  | rejected b hb now answer =>
    rw [answer.1]
    decide

/-- The decisions of a run that rejects a decided request are not final. -/
theorem not_final_of_reject {approvalId : String} {w : World τ π} (ops : List Op)
    (decided : DecidedIn approvalId (final (step env container) w ops)) :
    ¬ DecisionsFinal (trace (step env container) w (ops ++ [.rejectRequest approvalId])) := by
  obtain ⟨a, stored, hstatus⟩ := decided
  intro hfinal
  have hnew := hfinal _ _ [] (trace_snoc (step env container) w ops (.rejectRequest approvalId))
    approvalId a stored hstatus _ List.mem_cons_self
  exact hnew.2 (reject_decided stored hstatus)

/-- **Decided approvals are final** in a run exactly where every `reject_request` of the run found its
request pending, or found none: it is the one operation that writes a status without looking at the one
before. -/
theorem decisions_final_iff (env : Env) (container : AppContainer τ π) (transactions : τ)
    (provider : π) (ops : List Op) :
    DecisionsFinal (trace (step env container) (start transactions provider) ops) ↔
      ∀ st ∈ trace (step env container) (start transactions provider) ops, RejectsPending st := by
  constructor
  · intro hfinal st hst approvalId hinput a stored
    by_contra hdecided
    obtain ⟨history, later, hrun⟩ := List.append_of_mem hst
    obtain ⟨before, op, after, -, -, rfl, -⟩ := trace_split hrun
    have hnew := (hfinal history _ later hrun approvalId a stored hdecided _
      List.mem_cons_self).2
    cases hinput
    exact hnew (reject_decided stored hdecided)
  · intro hchecked history st later hrun approvalId a stored decided
    obtain ⟨before, op, after, rfl, rfl, rfl, rfl⟩ := trace_split hrun
    have hinvariant : GatingInvariant env _ (final (step env container) _ before) :=
      gatingInvariant_run transactions provider before
    refine decided_lasts (op :: after) hinvariant (fun st hst => hchecked st ?_) stored
      decided
    rw [trace_append]
    exact List.mem_append_right _ hst

/-- A payment above the limit is filed, approved and sent to the provider, and then rejected. -/
theorem executed_then_rejected :
    ¬ DecisionsFinal (trace (step Env.still (AppContainer.mock {})) (start Keyed.empty ())
      ([.initiateStkPush ⟨some "254700000000", some 20000, "order", "goods", none⟩,
        .executeApprovedPayment "1" "alice"] ++ [.rejectRequest "1"])) :=
  not_final_of_reject _ (by decide +kernel)

end MpesaMcp
