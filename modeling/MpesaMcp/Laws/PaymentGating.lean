import MpesaMcp.Laws.Steps
import Mathlib.Order.Lattice

/-!
# Payment gating over whole runs

Every call of `initiate_payment` in a run from empty approvals is for a positive amount. Above the
limit it is released by an approval: the step that makes the call completes the review of a request
that an earlier step filed for exactly this payment, and that had not expired when this step checked it
last (`payments_gated`). The decision is dated by a later reading of the clock, which may be past the
expiry (`payments_gated_late`).

The invariant relates every stored request to the history (`Filed`): it was filed by a step that
names its payment, its id was drawn from the surroundings, its reviewers are distinct, and while it is
pending it was never anything else and lacks a review.
-/

set_option autoImplicit false

namespace MpesaMcp

open Library Python

open ApprovalRequest (Move)

variable {τ π : Type}

/-! ## The property -/

/-- The calls of `initiate_payment` made in a step. -/
def calls (st : AppStep τ π) : List Initiation :=
  st.after.initiations.drop st.before.initiations.length

/-- The number of calls a step makes in executing an approval. -/
def callsFor (approvalId : String) (st : AppStep τ π) : Nat :=
  match st.input with
  | .executeApprovedPayment id _ => if id = approvalId then (calls st).length else 0
  | _ => 0

/-- The step filed a request under the id, in an `initiate_stk_push` for exactly this payment. -/
def FiledBy (st : AppStep τ π) (approvalId : String) (request : InitiatePayment) : Prop :=
  ∃ args response, st.input = .initiateStkPush args ∧
    PaymentService.requestedPayment args = some request ∧
    st.before.approvals.get approvalId = none ∧ (st.after.approvals.get approvalId).isSome ∧
    st.output = .ok (.payment response) ∧ response.approvalId = some approvalId

/-- On both sides of the step the request is pending, if it is stored at all. -/
def OpenIn (st : AppStep τ π) (approvalId : String) : Prop :=
  ∀ a, st.before.approvals.get approvalId = some a ∨ st.after.approvals.get approvalId = some a →
    a.status = .pending

/-- The step moves one request from pending to approved, with all of its reviews, and makes the call: a
request that an earlier step filed for exactly the payment of the call. -/
structure Completes (history : List (AppStep τ π)) (st : AppStep τ π) (call : Initiation)
    (approvalId : String) (before after : ApprovalRequest) : Prop where
  executed : ∃ operatorId, st.input = .executeApprovedPayment approvalId operatorId
  pending : st.before.approvals.get approvalId = some before ∧ before.status = .pending
  approved : st.after.approvals.get approvalId = some after ∧ after.status = .approved
  filed : ∃ filing ∈ history, FiledBy filing approvalId call.request
  distinct : after.reviewerIds.Nodup
  quorum : (after.reviewerIds.length : Int) = max 1 after.requiredReviewers
  /-- Never rejected or expired before. -/
  untouched : ∀ earlier ∈ history, OpenIn earlier approvalId

/-- The step completes a request and makes the call, and its last check of the expiry, by the clock
reading in front of the one that dates the decision, was in time. -/
structure Released (env : Env) (history : List (AppStep τ π)) (st : AppStep τ π) (call : Initiation)
    (approvalId : String) (before after : ApprovalRequest) : Prop extends
    Completes history st call approvalId before after where
  inTime : ∃ k, st.before.ambient.clockReads ≤ k ∧ k + 1 < st.after.ambient.clockReads ∧
    env.clock k < after.expiresAt ∧ after.reviewedAt = some (env.clock (k + 1))

/-- Every call of the run is for a positive amount, within the limit or released by an approval. -/
def PaymentsGated (env : Env) (maxStkAmount : Int) (run : List (AppStep τ π)) : Prop :=
  ∀ history st later, run = history ++ st :: later → ∀ call ∈ calls st,
    0 < call.request.amount ∧ (call.request.amount ≤ maxStkAmount ∨
      ∃ approvalId before after, Released env history st call approvalId before after)

/-! ## The invariant -/

/-- What is known of a stored request: the step that filed it, its reviewers, and that a pending one
was never decided. -/
structure Filed (env : Env) (history : List (AppStep τ π)) (a : ApprovalRequest) : Prop where
  origin : ∃ filing ∈ history, ∃ request key, FiledBy filing a.approvalId request ∧
    0 < request.amount ∧ a.payload = PaymentService.approvalPayload request key
  distinct : a.reviewerIds.Nodup
  short : a.status = .pending →
    a.reviewerIds = [] ∨ (a.reviewerIds.length : Int) < a.requiredReviewers
  untouched : a.status = .pending → ∀ earlier ∈ history, OpenIn earlier a.approvalId

/-- The id was among those drawn so far. -/
def Drawn (env : Env) (w : World τ π) (approvalId : String) : Prop :=
  ∃ n, n < w.ambient.uuidDraws ∧ approvalId = env.uuid4 n

/-- The invariant of a run: stored requests are filed, and every id ever stored was drawn. -/
structure GatingInvariant (env : Env) (history : List (AppStep τ π)) (w : World τ π) : Prop where
  filed : ∀ approvalId a, w.approvals.get approvalId = some a → Filed env history a
  drawn : ∀ approvalId a, w.approvals.get approvalId = some a → Drawn env w approvalId
  drawnBefore : ∀ earlier ∈ history, ∀ approvalId a,
    earlier.before.approvals.get approvalId = some a ∨
      earlier.after.approvals.get approvalId = some a → Drawn env w approvalId

variable {env : Env} {container : AppContainer τ π}

/-- The payment of an approval payload is the one it was built from. -/
theorem executablePayload_approvalPayload (request : InitiatePayment) (key : String) :
    PaymentService.executablePayload (PaymentService.approvalPayload request key) =
      some (request, key) := by
  simp [PaymentService.executablePayload, PaymentService.approvalPayload, lookup,
    PyValue.asStr?, PyValue.asInt?]

theorem Drawn.forward {w w' : World τ π} {approvalId : String} (h : Drawn env w approvalId)
    (forward : w.ambient.Forward w'.ambient) : Drawn env w' approvalId := by
  obtain ⟨n, hn, rfl⟩ := h
  exact ⟨n, Nat.lt_of_lt_of_le hn forward.uuidDraws, rfl⟩

/-- A request that is pending on both sides of a step. -/
theorem OpenIn.of_pending {st : AppStep τ π} {approvalId : String} {a b : ApprovalRequest}
    (before : st.before.approvals.get approvalId = some a)
    (after : st.after.approvals.get approvalId = some b) (ha : a.status = .pending)
    (hb : b.status = .pending) : OpenIn st approvalId := by
  rintro c (hc | hc)
  · cases before.symm.trans hc
    exact ha
  · cases after.symm.trans hc
    exact hb

/-- A move keeps what is known of a request; one that leaves it pending found it pending. -/
theorem Filed.move {history : List (AppStep τ π)} {st : AppStep τ π} {a b : ApprovalRequest}
    {k : Nat} (h : Filed env history a) (move : Move env k a b)
    (before : st.before.approvals.get a.approvalId = some a)
    (after : st.after.approvals.get a.approvalId = some b) : Filed env (history ++ [st]) b := by
  obtain ⟨hid, hpayload⟩ := move.keeps
  obtain ⟨filing, hmem, request, key, hfiled, hpos, hpay⟩ := h.origin
  refine ⟨⟨filing, List.mem_append_left _ hmem, request, key, hid ▸ hfiled, hpos,
    hpayload.trans hpay⟩, ?_, ?_, ?_⟩
  · cases move with
    | expire => simpa [ApprovalRequest.withStatus] using h.distinct
    | review operatorId _ _ unseen _ =>
      exact List.Nodup.append h.distinct (List.nodup_singleton _) (by simpa using unseen)
    | approve operatorId _ _ unseen _ =>
      exact List.Nodup.append h.distinct (List.nodup_singleton _) (by simpa using unseen)
    | reject => simpa [ApprovalRequest.withStatus] using h.distinct
  · intro hb
    cases move with
    | expire => simp at hb
    | review operatorId _ _ _ short =>
      right
      simpa [ApprovalRequest.reviewedBy] using short
    | approve => cases hb
    | reject => simp at hb
  · intro hb earlier hearlier
    -- only a review leaves the request pending, and it found it pending
    have hpending : a.status = .pending := by
      cases move with
      | expire pending => exact pending
      | review _ pending => exact pending
      | approve _ pending => exact pending
      | reject => simp at hb
    rw [hid]
    rcases List.mem_append.mp hearlier with hold | hnew
    · exact h.untouched hpending earlier hold
    · rw [List.mem_singleton.mp hnew]
      exact .of_pending before after hpending hb

/-- A step that leaves a request alone keeps what is known of it. -/
theorem Filed.same {history : List (AppStep τ π)} {st : AppStep τ π} {a : ApprovalRequest}
    (h : Filed env history a) (before : st.before.approvals.get a.approvalId = some a)
    (after : st.after.approvals.get a.approvalId = some a) : Filed env (history ++ [st]) a := by
  obtain ⟨filing, hmem, rest⟩ := h.origin
  refine ⟨⟨filing, List.mem_append_left _ hmem, rest⟩, h.distinct, h.short, ?_⟩
  intro hp earlier hearlier
  rcases List.mem_append.mp hearlier with hold | hnew
  · exact h.untouched hp earlier hold
  · rw [List.mem_singleton.mp hnew]
    exact .of_pending before after hp hp

/-- Requests that only move keep the invariant: they keep their payload, and gain only reviewers who
were not there before. -/
theorem GatingInvariant.moves {history : List (AppStep τ π)} (st : AppStep τ π)
    (h : GatingInvariant env history st.before)
    (forward : st.before.ambient.Forward st.after.ambient)
    (moves : MovesOnly (fun a b => ∃ k, Move env k a b) st.before.approvals st.after.approvals) :
    GatingInvariant env (history ++ [st]) st.after := by
  have hdrawn : ∀ approvalId a, st.after.approvals.get approvalId = some a →
      Drawn env st.before approvalId := by
    intro approvalId a ha
    rcases moves approvalId with hsame | ⟨b, _, hb, _, _⟩
    · exact h.drawn approvalId a (hsame ▸ ha)
    · exact h.drawn approvalId b hb
  refine ⟨fun approvalId a ha => ?_, fun approvalId a ha => (hdrawn approvalId a ha).forward forward,
    ?_⟩
  · have hkey := Keyed.key_of_get ha
    subst hkey
    rcases moves a.approvalId with hsame | ⟨b, c, hb, hc, k, move⟩
    · exact (h.filed _ a (hsame ▸ ha)).same (hsame ▸ ha) ha
    · cases hc.symm.trans ha
      have hid := Keyed.key_of_get hb
      exact (h.filed _ b hb).move move (hid ▸ hb) (hid ▸ ha)
  · intro earlier hearlier approvalId a ha
    rcases List.mem_append.mp hearlier with hold | hnew
    · exact (h.drawnBefore earlier hold approvalId a ha).forward forward
    · rw [List.mem_singleton.mp hnew] at ha
      rcases ha with ha | ha
      · exact (h.drawn approvalId a ha).forward forward
      · exact (hdrawn approvalId a ha).forward forward

/-- A new request under a fresh id keeps the invariant: it was asked for by the step that files it, and
no call of the provider is for it yet. -/
theorem GatingInvariant.file {history : List (AppStep τ π)} (st : AppStep τ π)
    {approval : ApprovalRequest} {request : InitiatePayment} {key : String}
    (h : GatingInvariant env history st.before)
    (drawn : approval.approvalId = env.uuid4 st.before.ambient.uuidDraws)
    (draws : st.after.ambient.uuidDraws = st.before.ambient.uuidDraws + 1)
    (put : st.after.approvals = st.before.approvals.put approval)
    (blank : approval.status = .pending ∧ approval.reviewerIds = [])
    (payload : approval.payload = PaymentService.approvalPayload request key)
    (positive : 0 < request.amount)
    (filing : st.before.approvals.get approval.approvalId = none →
      FiledBy st approval.approvalId request) :
    GatingInvariant env (history ++ [st]) st.after := by
  -- the drawn id is new: neither stored now nor in any earlier state
  have hfresh : ¬ Drawn env st.before approval.approvalId := by
    rintro ⟨n, hn, he⟩
    have := env.uuid4_injective (drawn.symm.trans he)
    omega
  have hnone : st.before.approvals.get approval.approvalId = none := by
    cases hget : st.before.approvals.get approval.approvalId with
    | none => rfl
    | some a => exact absurd (h.drawn _ a hget) hfresh
  have hforward : ∀ {approvalId}, Drawn env st.before approvalId →
      Drawn env st.after approvalId := by
    rintro approvalId ⟨n, hn, rfl⟩
    exact ⟨n, by omega, rfl⟩
  have hself : Drawn env st.after approval.approvalId :=
    ⟨st.before.ambient.uuidDraws, by omega, drawn⟩
  have hafter : ∀ approvalId, st.after.approvals.get approvalId =
      if approvalId = approval.approvalId then some approval
      else st.before.approvals.get approvalId := fun approvalId => by
    rw [put, Keyed.get_put]
  refine ⟨fun approvalId a ha => ?_, fun approvalId a ha => ?_, ?_⟩
  · have hkey := Keyed.key_of_get ha
    subst hkey
    have hget := hafter a.approvalId
    split at hget
    next hid =>
      cases hget.symm.trans ha
      refine ⟨⟨st, List.mem_append_right _ List.mem_cons_self, request, key, filing hnone,
        positive, payload⟩, by rw [blank.2]; exact List.nodup_nil, fun _ => Or.inl blank.2, ?_⟩
      intro _ earlier hearlier
      rcases List.mem_append.mp hearlier with hold | hnew
      · exact fun c hc => absurd (h.drawnBefore earlier hold _ c hc) hfresh
      · rw [List.mem_singleton.mp hnew]
        rintro c (hc | hc)
        · exact absurd (hnone.symm.trans hc) (by simp)
        · cases ha.symm.trans hc
          exact blank.1
    next => exact (h.filed _ a (hget ▸ ha)).same (hget ▸ ha) ha
  · have hget := hafter approvalId
    split at hget
    next hid => exact hid ▸ hself
    next => exact hforward (h.drawn _ a (hget ▸ ha))
  · intro earlier hearlier approvalId a ha
    rcases List.mem_append.mp hearlier with hold | hnew
    · exact hforward (h.drawnBefore earlier hold approvalId a ha)
    · rw [List.mem_singleton.mp hnew] at ha
      rcases ha with ha | ha
      · exact hforward (h.drawn _ a ha)
      · have hget := hafter approvalId
        split at hget
        next hid => exact hid ▸ hself
        next => exact hforward (h.drawn _ a (hget ▸ ha))

/-- **The step lemma**: every operation keeps the invariant. A call of the provider is made by the step
that approves its request, and the request is decided from then on, so there is no second call for it. -/
theorem GatingInvariant.step {history : List (AppStep τ π)} {w : World τ π} {op : Op}
    (h : GatingInvariant env history w) :
    GatingInvariant env (history ++ [stepAt (step env container) w op])
      (MpesaMcp.step env container op w).2 := by
  have hforward : w.ambient.Forward (MpesaMcp.step env container op w).2.ambient :=
    run_forward env container _ w
  cases step_cases env container op w with
  | moved moves _ =>
    exact h.moves (stepAt (MpesaMcp.step env container) w op) hforward
      (moves.mono fun _ _ h => h.1)
  | filed args input request requested positive _ approval drawn payload blank answer put _ draws =>
    refine h.file (stepAt (MpesaMcp.step env container) w op) drawn draws put blank payload
      positive fun hnone => ?_
    obtain ⟨response, houtput, hid⟩ := answer
    refine ⟨args, response, input, requested, hnone, ?_, houtput, hid⟩
    show ((MpesaMcp.step env container op w).2.approvals.get approval.approvalId).isSome
    rw [put, Keyed.get_put_self]
    rfl
  | paid _ _ _ _ _ _ same _ =>
    exact h.moves (stepAt (MpesaMcp.step env container) w op) hforward (.of_eq same)
  | executed approvalId operatorId _ a stored pending early unseen enough _ put _ =>
    refine h.moves (stepAt (MpesaMcp.step env container) w op) hforward ?_
    show MovesOnly _ w.approvals (MpesaMcp.step env container op w).2.approvals
    rw [put]
    exact .of_put stored rfl ⟨_, .approve operatorId pending early unseen enough⟩

/-! ## The calls of one step -/

/-- A step that adds no call makes none. -/
theorem calls_of_same (st : AppStep τ π) (h : st.after.initiations = st.before.initiations) :
    calls st = [] := by
  rw [calls, h, List.drop_length]

theorem calls_of_append (st : AppStep τ π) {call : Initiation}
    (h : st.after.initiations = st.before.initiations ++ [call]) : calls st = [call] := by
  rw [calls, h, List.drop_left]

/-- A call is for an amount within the limit, or released by an approval. -/
theorem call_gated {history : List (AppStep τ π)} {w : World τ π} {op : Op}
    (h : GatingInvariant env history w) {call : Initiation}
    (hcall : call ∈ calls (stepAt (step env container) w op)) :
    0 < call.request.amount ∧ (call.request.amount ≤ container.settings.maxStkAmount ∨
      ∃ approvalId before after,
        Released env history (stepAt (step env container) w op) call approvalId before after) := by
  cases step_cases env container op w with
  | moved _ same =>
    rw [calls_of_same (stepAt (step env container) w op) same] at hcall
    cases hcall
  | filed _ _ _ _ _ _ _ _ _ _ _ _ same _ =>
    rw [calls_of_same (stepAt (step env container) w op) same] at hcall
    cases hcall
  | paid args _ request _ positive within _ made =>
    obtain ⟨made, rfl, happend⟩ := made
    rw [calls_of_append (stepAt (step env container) w op) happend] at hcall
    cases List.mem_singleton.mp hcall
    exact ⟨positive, Or.inl within⟩
  | executed approvalId operatorId input a stored pending early unseen enough reads put made =>
    rcases made with same | ⟨made, key', hnamed, happend⟩
    · rw [calls_of_same (stepAt (step env container) w op) same] at hcall
      cases hcall
    · rw [calls_of_append (stepAt (step env container) w op) happend] at hcall
      cases List.mem_singleton.mp hcall
      have hfiled := h.filed approvalId a stored
      have hid := Keyed.key_of_get stored
      obtain ⟨filing, hmem, request, key, hfiledBy, hpos, hpay⟩ := hfiled.origin
      rw [hpay, executablePayload_approvalPayload] at hnamed
      cases hnamed
      refine ⟨hpos, Or.inr ⟨approvalId, a,
        a.approvedBy operatorId (env.clock (w.ambient.clockReads + 2)), ⟨⟨operatorId, input⟩,
        ⟨stored, pending⟩, ⟨?_, rfl⟩, ⟨filing, hmem, hid ▸ hfiledBy⟩, ?_, ?_,
        hid ▸ hfiled.untouched pending⟩, ⟨w.ambient.clockReads + 1, ?_, ?_, early, rfl⟩⟩⟩
      · show (step env container op w).2.approvals.get approvalId = _
        rw [put]
        exact Keyed.get_put_of_eq _ hid
      · exact List.Nodup.append hfiled.distinct (List.nodup_singleton _) (by simpa using unseen)
      · -- the completing review is the one that reaches the quorum
        have hlen : ((a.approvedBy operatorId
            (env.clock (w.ambient.clockReads + 2))).reviewerIds.length : Int) =
            (a.reviewerIds.length : Int) + 1 := by
          simp [ApprovalRequest.approvedBy, ApprovalRequest.reviewedBy]
        rw [hlen]
        show _ = max 1 a.requiredReviewers
        rcases hfiled.short pending with hnil | hshort
        · rw [hnil] at enough ⊢
          simp only [List.length_nil] at enough ⊢
          omega
        · omega
      · exact Nat.le_succ _
      · show _ < (step env container op w).2.ambient.clockReads
        omega

/-! ## At most one call for an approval -/

/-- The request is stored and decided. -/
def DecidedIn (approvalId : String) (w : World τ π) : Prop :=
  ∃ a, w.approvals.get approvalId = some a ∧ a.status ≠ .pending

instance (approvalId : String) (w : World τ π) : Decidable (DecidedIn approvalId w) :=
  decidable_of_iff ((w.approvals.get approvalId).any fun a => decide (a.status ≠ .pending))
    (by simp [DecidedIn, Option.any_eq_true])

/-- A decided request stays decided. -/
theorem decided_stays {approvalId : String} {w : World τ π} {op : Op}
    (fresh : ¬ DecidedIn (env.uuid4 w.ambient.uuidDraws) w) (h : DecidedIn approvalId w) :
    DecidedIn approvalId (step env container op w).2 := by
  obtain ⟨a, ha, hdecided⟩ := h
  cases step_cases env container op w with
  | moved moves _ =>
    rcases moves approvalId with hsame | ⟨b, c, hb, hc, ⟨k, move⟩, _⟩
    · exact ⟨a, hsame.trans ha, hdecided⟩
    · cases hb.symm.trans ha
      obtain ⟨now, rfl⟩ := move.of_decided hdecided
      exact ⟨_, hc, by simp⟩
  | filed _ _ _ _ _ _ approval drawn _ _ _ put _ _ =>
    by_cases hid : approvalId = approval.approvalId
    · exact absurd ⟨a, (hid.trans drawn) ▸ ha, hdecided⟩ fresh
    · refine ⟨a, ?_, hdecided⟩
      rw [put, Keyed.get_put_of_ne _ hid]
      exact ha
  | paid _ _ _ _ _ _ same _ => exact ⟨a, same ▸ ha, hdecided⟩
  | executed id operatorId _ b stored pending _ _ _ _ put _ =>
    have hne : approvalId ≠ id := by
      rintro rfl
      cases stored.symm.trans ha
      exact hdecided pending
    have hkey : (b.approvedBy operatorId (env.clock (w.ambient.clockReads + 2))).approvalId = id :=
      Keyed.key_of_get (a := b) stored
    refine ⟨a, ?_, hdecided⟩
    rw [put, Keyed.get_put_of_ne _ (hkey ▸ hne)]
    exact ha

/-- A step spends a call on an approval only by deciding it, and then exactly one. -/
theorem callsFor_spent {approvalId : String} {w : World τ π} {op : Op}
    (h : callsFor approvalId (stepAt (step env container) w op) ≠ 0) :
    callsFor approvalId (stepAt (step env container) w op) = 1 ∧ ¬ DecidedIn approvalId w ∧
      DecidedIn approvalId (step env container op w).2 := by
  have hzero : calls (stepAt (step env container) w op) = [] →
      callsFor approvalId (stepAt (step env container) w op) = 0 := by
    intro hnil
    unfold callsFor
    rw [hnil]
    split <;> simp
  cases step_cases env container op w with
  | moved _ same => exact absurd (hzero (calls_of_same _ same)) h
  | filed _ _ _ _ _ _ _ _ _ _ _ _ same _ => exact absurd (hzero (calls_of_same _ same)) h
  | paid args input =>
    subst input
    exact absurd rfl h
  | executed id operatorId input a stored pending _ _ _ _ put made =>
    rcases made with same | ⟨call, key, _, happend⟩
    · exact absurd (hzero (calls_of_same _ same)) h
    subst input
    have hcalls : calls (stepAt (step env container)
        w (.executeApprovedPayment id operatorId)) = [call] := calls_of_append _ happend
    by_cases hid : id = approvalId
    · subst hid
      refine ⟨?_, ?_, ?_⟩
      · unfold callsFor
        rw [hcalls]
        exact if_pos rfl
      · rintro ⟨b, hb, hdecided⟩
        cases stored.symm.trans hb
        exact hdecided pending
      · refine ⟨a.approvedBy operatorId (env.clock (w.ambient.clockReads + 2)), ?_, nofun⟩
        rw [put]
        exact Keyed.get_put_of_eq _ (Keyed.key_of_get (a := a) stored)
    · exact absurd (by simp [callsFor, stepAt, hid]) h

/-! ## Whole runs -/

/-- Without approvals, before the first step. -/
theorem gatingInvariant_of_empty {w : World τ π} (empty : w.approvals = Keyed.empty) :
    GatingInvariant env [] w := by
  have hnone : ∀ approvalId, w.approvals.get approvalId = none := by
    intro approvalId
    rw [empty]
    exact Keyed.get_empty approvalId
  refine ⟨fun approvalId a ha => ?_, fun approvalId a ha => ?_, fun _ h => nomatch h⟩
  · exact absurd ((hnone approvalId).symm.trans ha) (by simp)
  · exact absurd ((hnone approvalId).symm.trans ha) (by simp)

theorem gatingInvariant_start (transactions : τ) (provider : π) :
    GatingInvariant env [] (start transactions provider) :=
  gatingInvariant_of_empty rfl

theorem gatingInvariant_run (transactions : τ) (provider : π) (ops : List Op) :
    GatingInvariant env (trace (step env container) (start transactions provider) ops)
      (final (step env container) (start transactions provider) ops) :=
  invariant (gatingInvariant_start transactions provider) (fun _ _ _ h => h.step) ops

/-- The next id to be drawn is not that of a stored request. -/
theorem GatingInvariant.fresh {history : List (AppStep τ π)} {w : World τ π}
    (h : GatingInvariant env history w) : ¬ DecidedIn (env.uuid4 w.ambient.uuidDraws) w := by
  rintro ⟨a, ha, -⟩
  obtain ⟨n, hn, he⟩ := h.drawn _ a ha
  have := env.uuid4_injective he
  omega

/-- **Payment gating.** In every run from empty approvals, with any settings, repository and
provider, each call of `initiate_payment` is for a positive amount within the limit or released by the
approval that its step completes, and each approval leads to at most one call. -/
theorem payments_gated (env : Env) (container : AppContainer τ π) (transactions : τ) (provider : π)
    (ops : List Op) :
    PaymentsGated env container.settings.maxStkAmount
        (trace (step env container) (start transactions provider) ops) ∧
      ∀ approvalId, total (callsFor approvalId)
        (trace (step env container) (start transactions provider) ops) ≤ 1 := by
  constructor
  · intro history st later hrun call hcall
    obtain ⟨before, op, after, rfl, rfl, rfl, rfl⟩ := trace_split hrun
    exact call_gated (gatingInvariant_run transactions provider before) hcall
  · intro approvalId
    have stays : ∀ w op, ¬ DecidedIn (env.uuid4 w.ambient.uuidDraws) w → DecidedIn approvalId w →
        DecidedIn approvalId (step env container op w).2 := fun _ _ fresh => decided_stays fresh
    refine (total_le_one
      (C := fun st => ¬ DecidedIn (env.uuid4 st.before.ambient.uuidDraws) st.before)
      stays (fun w op _ hdecided => ?_)
      (fun w op _ hspent => ⟨(callsFor_spent hspent).1, (callsFor_spent hspent).2.2⟩) _ ops ?_).1
    · by_contra hspent
      exact (callsFor_spent hspent).2.1 hdecided
    · intro st hst
      obtain ⟨before, op, _, _, rfl⟩ := mem_trace_split hst
      exact (gatingInvariant_run transactions provider before).fresh

/-! ## A decision dated after the expiry -/

/-- The request is dated as reviewed before its expiry. -/
def ApprovalRequest.DecidedInTime (a : ApprovalRequest) : Prop :=
  ∃ reviewedAt, a.reviewedAt = some reviewedAt ∧ reviewedAt < a.expiresAt

/-- Payment gating by the dates of the decisions: a call above the limit needs a request that was dated
as decided before its expiry, whatever its last check read. -/
def PaymentsGatedInTime (maxStkAmount : Int) (run : List (AppStep τ π)) : Prop :=
  ∀ history st later, run = history ++ st :: later → ∀ call ∈ calls st,
    0 < call.request.amount ∧ (call.request.amount ≤ maxStkAmount ∨
      ∃ approvalId before after, Completes history st call approvalId before after ∧
        after.DecidedInTime)

/-- Surroundings whose clock stands still for four readings, and shows half an hour and a second more
from then on. -/
def Env.pausing : Env where
  toRuntime := Env.still.toRuntime
  clock n := if n < 4 then Datetime.epoch else ⟨1801000000, by decide⟩
  clock_mono m n h := by
    dsimp only
    by_cases hn : n < 4
    · rw [if_pos hn, if_pos (Nat.lt_of_le_of_lt h hn)]
    · rw [if_neg hn]
      split
      · exact (by decide : (0 : Int) ≤ 1801000000)
      · exact le_refl _
  monotonic := Env.still.monotonic
  monotonic_mono := Env.still.monotonic_mono
  uuid4 := Env.still.uuid4
  uuid4_injective := Env.still.uuid4_injective
  databaseFails := Env.still.databaseFails

/-- A payment of 20000 shillings that is requested and approved. -/
def requestedThenApproved : List Op := [
  .initiateStkPush ⟨some "254700000000", some 20000, "order", "goods", some "key"⟩,
  .executeApprovedPayment "1" "alice"]

/-- The date of a decision is read after its last check: here the check reads the epoch, the request is
due half an hour later, and the decision that releases the call is dated a second after that. -/
theorem payments_gated_late : ¬ PaymentsGatedInTime ({} : Settings).maxStkAmount
    (trace (step .pausing (.inMemory {} .development MockDarajaPaymentProvider))
      (start Keyed.empty ()) requestedThenApproved) := by
  intro h
  let container := AppContainer.inMemory {} .development MockDarajaPaymentProvider
  let filing := stepAt (step .pausing container) (start Keyed.empty ())
    (.initiateStkPush ⟨some "254700000000", some 20000, "order", "goods", some "key"⟩)
  let st := stepAt (step .pausing container) filing.after (.executeApprovedPayment "1" "alice")
  have hcalls : (calls st).map (fun call => call.request.amount) = [20000] := by decide +kernel
  obtain ⟨call, hcall, hamount⟩ : ∃ call ∈ calls st, call.request.amount = 20000 := by
    have hmem : 20000 ∈ (calls st).map fun call => call.request.amount := by
      rw [hcalls]
      exact List.mem_singleton_self _
    exact List.mem_map.mp hmem
  obtain ⟨-, hwithin | ⟨approvalId, before, after, hcompletes, reviewedAt, hreviewed, hearly⟩⟩ :=
    h [filing] st [] rfl call hcall
  · rw [hamount] at hwithin
    exact absurd hwithin (by decide)
  · obtain ⟨operatorId, hinput⟩ := hcompletes.executed
    cases hinput
    have hlate : (st.after.approvals.get "1").all fun a =>
        a.reviewedAt.all fun reviewedAt => decide (a.expiresAt ≤ reviewedAt) := by
      decide +kernel
    rw [hcompletes.approved.1, Option.all_some, hreviewed, Option.all_some] at hlate
    exact absurd hearly (not_lt.mpr (of_decide_eq_true hlate))

end MpesaMcp
