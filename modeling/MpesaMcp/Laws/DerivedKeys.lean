import Mathlib
import MpesaMcp.Laws.ApprovedPayload
import MpesaMcp.Library.Delimited

/-!
# What a derived idempotency key tells apart

The derived key is the digest of the four fields of a payment with a bar between them, and the bar is
not escaped. So payments whose fields hold no bar have keys of their own, and a payment whose fields
can be divided in another way shares its key with another payment (`separated_iff`). A run hands the
transaction of one call without a key to another one under the same derived key alone
(`derivedKey_of_answered`), so what the key tells apart, the run does (`derived_keys_separate_plain`).
-/

set_option autoImplicit false

namespace MpesaMcp

open Library Python PaymentService

/-! ## The key of a payment -/

/-- The key that is derived for a payment. -/
def derivedKey (py : Runtime) (request : InitiatePayment) : String :=
  deriveIdempotencyKey py request.phoneNumber request.amount request.accountReference
    request.description

/-- The fields of a payment in the order the key writes them. -/
def InitiatePayment.fields (request : InitiatePayment) : Delimited Char Int :=
  ⟨request.phoneNumber.toList, request.amount, request.accountReference.toList,
    request.description.toList⟩

/-- An amount as the key writes it. -/
def decimal (amount : Int) : List Char := (toString amount).toList

/-- No field of the payment can be taken for two: reference and description hold no bar, and no part of
the phone number behind a bar is an amount. -/
structure Plain (request : InitiatePayment) : Prop where
  phoneNumber : ∀ part ∈ (request.phoneNumber.toList.splitOn '|').tail, ∀ amount, part ≠ decimal amount
  accountReference : '|' ∉ request.accountReference.toList
  description : '|' ∉ request.description.toList

theorem fields_injective : Function.Injective InitiatePayment.fields := by
  rintro ⟨phone, amount, reference, text⟩ ⟨phone', amount', reference', text'⟩ h
  simp only [InitiatePayment.fields, Delimited.mk.injEq, String.toList_inj] at h
  obtain ⟨rfl, rfl, rfl, rfl⟩ := h
  rfl

theorem decimal_injective : Function.Injective decimal := by
  intro m n h
  have htext : toString m = toString n := String.toList_inj.mp h
  rw [Int.toString_eq_repr, Int.toString_eq_repr] at htext
  exact Int.repr_injective htext

/-- Of its digits and its sign, no character of an amount is a bar. -/
theorem bar_not_mem_decimal (amount : Int) : '|' ∉ decimal amount := by
  have hdigits : ∀ n : Nat, '|' ∉ n.repr.toList := by
    intro n hmem
    rw [Nat.toList_repr] at hmem
    exact absurd (Nat.isDigit_of_mem_toDigits (by decide) (by decide) hmem) (by decide)
  rw [decimal, Int.toString_eq_repr, Int.repr_eq_if]
  split
  next => exact hdigits _
  next =>
    rw [String.toList_append, List.mem_append, not_or]
    exact ⟨by decide, hdigits _⟩

/-- The key is the digest of the joined fields. -/
theorem derivedKey_eq (py : Runtime) (request : InitiatePayment) : derivedKey py request =
    py.sha256Hexdigest (String.ofList (request.fields.joined '|' decimal)) := by
  refine congrArg py.sha256Hexdigest (String.toList_inj.mp ?_)
  simp [InitiatePayment.fields, Delimited.joined, decimal]

/-- A payment is plain exactly where its fields can be read back from their text. -/
theorem plain_iff_legible {request : InitiatePayment} :
    Plain request ↔ request.fields.Legible '|' decimal :=
  ⟨fun h => ⟨h.phoneNumber, h.accountReference, h.description⟩,
    fun h => ⟨h.first, h.third, h.fourth⟩⟩

/-- **The derived key tells a payment apart from every other** exactly where it is plain: the fields
are joined by a separator that a field may contain, so two payments can be joined to one text. -/
theorem separated_iff {py : Runtime} (injective : Function.Injective py.sha256Hexdigest)
    (request : InitiatePayment) :
    (∀ other, derivedKey py other = derivedKey py request → other = request) ↔ Plain request := by
  have hsame : ∀ other, derivedKey py other = derivedKey py request ↔
      other.fields.joined '|' decimal = request.fields.joined '|' decimal := by
    intro other
    rw [derivedKey_eq, derivedKey_eq, injective.eq_iff, String.ofList_inj]
  rw [plain_iff_legible, ← Delimited.joined_eq_only bar_not_mem_decimal decimal_injective]
  constructor
  · intro h x hjoined
    -- every record is that of a payment
    have hx : x = (⟨String.ofList x.first, x.value, String.ofList x.third,
        String.ofList x.fourth⟩ : InitiatePayment).fields := by
      simp [InitiatePayment.fields]
    rw [hx] at hjoined ⊢
    rw [h _ ((hsame _).mpr hjoined)]
  · intro h other hkey
    exact fields_injective (h other.fields ((hsame other).mp hkey))

/-! ## Whose transaction answers a call -/

/-- A call for this payment without an idempotency key. -/
structure Keyless (args : InitiateStkPush) (request : InitiatePayment) : Prop where
  key : args.idempotencyKey = none ∨ args.idempotencyKey = some ""
  requested : requestedPayment args = some request

section Property

variable {τ π : Type}

/-- The step pays a call without a key: it is the call, or it executes the approval that the call filed
in the history. -/
inductive PaysKeyless (history : List (AppStep τ π)) (st : AppStep τ π) (request : InitiatePayment) :
    Prop
  | called (args : InitiateStkPush) (input : st.input = .initiateStkPush args)
      (keyless : Keyless args request)
  | approved (approvalId operatorId : String)
      (input : st.input = .executeApprovedPayment approvalId operatorId) (filing : AppStep τ π)
      (earlier : filing ∈ history) (args : InitiateStkPush)
      (call : filing.input = .initiateStkPush args) (keyless : Keyless args request)
      (filed : FiledBy filing approvalId request)

/-- The output answers with a transaction that was there. -/
def AnswersExisting (t : PendingTransaction) (output : Except Exn Reply) : Prop :=
  ∃ reply, output = .ok reply ∧ reply.payment? = some (responseFromExistingTransaction t)

variable {repository : TransactionRepository τ} (store : RowStore repository)

/-- The step stores a row under this id. -/
def Creates (transactionId : String) (st : AppStep τ π) : Prop :=
  (store.rows st.before.transactions).get transactionId = none ∧
    ((store.rows st.after.transactions).get transactionId).isSome

/-- In the run, a call without a key for `request` is answered with the transaction that one for
`other` created. -/
def AnsweredWith (run : List (AppStep τ π)) (request other : InitiatePayment) : Prop :=
  ∃ earlier creation between st later t, run = earlier ++ creation :: between ++ st :: later ∧
    PaysKeyless earlier creation other ∧ Creates store t.transactionId creation ∧
    PaysKeyless (earlier ++ creation :: between) st request ∧ AnswersExisting t st.output

end Property

/-! ## The key of a call -/

theorem keyFor_of_keyless {py : Runtime} {args : InitiateStkPush} {request : InitiatePayment}
    (keyless : Keyless args request) : keyFor py args request = derivedKey py request := by
  unfold keyFor resolveIdempotencyKey
  rcases keyless.key with hkey | hkey
  · rw [hkey]
    rfl
  · rw [hkey]
    rfl

section Filings

variable {τ π : Type} {env : Env} {container : AppContainer τ π}

/-- Every request that was filed is stored with the key of the call that filed it. -/
def FilingsKept (env : Env) (history : List (AppStep τ π)) (w : World τ π) : Prop :=
  ∀ filing ∈ history, ∀ approvalId args request, filing.input = .initiateStkPush args →
    FiledBy filing approvalId request → ∃ a, w.approvals.get approvalId = some a ∧
      a.payload = approvalPayload request (keyFor env.toRuntime args request)

/-- A step that only moves requests files none. -/
theorem FilingsKept.moves {history : List (AppStep τ π)} {st : AppStep τ π}
    (h : FilingsKept env history st.before)
    (moves : MovesOnly (fun a b => b.payload = a.payload) st.before.approvals st.after.approvals) :
    FilingsKept env (history ++ [st]) st.after := by
  intro filing hfiling approvalId args request hinput hfiled
  rcases List.mem_append.mp hfiling with hold | hnew
  · obtain ⟨a, ha, hpayload⟩ := h filing hold approvalId args request hinput hfiled
    rcases moves approvalId with hsame | ⟨b, c, hb, hc, hbc⟩
    · exact ⟨a, hsame.trans ha, hpayload⟩
    · cases hb.symm.trans ha
      exact ⟨c, hc, hbc.trans hpayload⟩
  · rw [List.mem_singleton.mp hnew] at hfiled
    obtain ⟨-, -, -, -, hbefore, hafter, -⟩ := hfiled
    rcases moves approvalId with hsame | ⟨b, c, hb, -, -⟩
    · rw [hsame, hbefore] at hafter
      cases hafter
    · cases hbefore.symm.trans hb

/-- A new request stands beside the others: its id was just drawn, and its payload carries the key of
its own arguments. -/
theorem FilingsKept.file {history : List (AppStep τ π)} {st : AppStep τ π} {args : InitiateStkPush}
    {request : InitiatePayment} {approval : ApprovalRequest} (h : FilingsKept env history st.before)
    (fresh : st.before.approvals.get approval.approvalId = none)
    (input : st.input = .initiateStkPush args) (requested : requestedPayment args = some request)
    (payload : approval.payload = approvalPayload request (keyFor env.toRuntime args request))
    (put : st.after.approvals = st.before.approvals.put approval) :
    FilingsKept env (history ++ [st]) st.after := by
  intro filing hfiling approvalId args' request' hinput hfiled
  rcases List.mem_append.mp hfiling with hold | hnew
  · obtain ⟨a, ha, hpayload⟩ := h filing hold approvalId args' request' hinput hfiled
    have hne : approvalId ≠ approval.approvalId := by
      rintro rfl
      cases fresh.symm.trans ha
    exact ⟨a, by rw [put, Keyed.get_put_of_ne _ hne, ha], hpayload⟩
  · rw [List.mem_singleton.mp hnew] at hfiled hinput
    obtain ⟨args'', response, hinput', hrequested, hbefore, hafter, -⟩ := hfiled
    cases input.symm.trans hinput
    cases input.symm.trans hinput'
    cases requested.symm.trans hrequested
    have hid : approvalId = approval.approvalId := by
      by_contra hne
      rw [put, Keyed.get_put_of_ne _ hne, hbefore] at hafter
      cases hafter
    exact ⟨approval, by rw [put]; exact Keyed.get_put_of_eq _ hid.symm, payload⟩

/-- Every operation keeps the filed requests: those that are stored keep their payloads whatever is
done to them, and a new one is filed by the initiation that asks for it. -/
theorem FilingsKept.step {history : List (AppStep τ π)} {w : World τ π} {op : Op}
    (gating : GatingInvariant env history w) (h : FilingsKept env history w) :
    FilingsKept env (history ++ [stepAt (MpesaMcp.step env container) w op])
      (MpesaMcp.step env container op w).2 := by
  have hmoves : MovesOnly (fun a b => b.payload = a.payload) w.approvals
      (MpesaMcp.step env container op w).2.approvals →
        FilingsKept env (history ++ [stepAt (MpesaMcp.step env container) w op])
          (MpesaMcp.step env container op w).2 :=
    fun moves => @FilingsKept.moves _ _ _ _ (stepAt (MpesaMcp.step env container) w op) h moves
  cases step_cases env container op w with
  | moved moves _ => exact hmoves (moves.mono fun a b hab => hab.1.choose_spec.keeps.2)
  | filed args input request requested _ _ approval drawn payload _ _ put _ _ =>
    refine @FilingsKept.file _ _ _ _ (stepAt (MpesaMcp.step env container) w op) args request approval
      h ?_ input requested payload put
    show w.approvals.get approval.approvalId = none
    cases hget : w.approvals.get approval.approvalId with
    | none => rfl
    | some a =>
      obtain ⟨n, hn, he⟩ := gating.drawn _ a hget
      have hsame := env.uuid4_injective (drawn.symm.trans he)
      omega
  | paid _ _ _ _ _ _ same _ => exact hmoves (.of_eq same)
  | executed approvalId operatorId _ a stored _ _ _ _ _ put _ =>
    refine hmoves ?_
    rw [put]
    exact .of_put stored rfl rfl

/-- What is known of the requests after a run that starts with none. -/
theorem filings_run {w : World τ π} (empty : w.approvals = Keyed.empty) (ops : List Op) :
    GatingInvariant env (trace (MpesaMcp.step env container) w ops)
        (final (MpesaMcp.step env container) w ops) ∧
      FilingsKept env (trace (MpesaMcp.step env container) w ops)
        (final (MpesaMcp.step env container) w ops) := by
  refine invariant (I := fun history v => GatingInvariant env history v ∧ FilingsKept env history v)
    ⟨gatingInvariant_of_empty empty, ?_⟩ (fun history v op h => ⟨h.1.step, h.2.step h.1⟩) ops
  intro filing hfiling
  cases hfiling

/-- A step that pays a call without a key does it under the key derived for the call. -/
theorem keyOf_paysKeyless {history : List (AppStep τ π)} {w : World τ π} {op : Op}
    {request : InitiatePayment} {idempotencyKey : String} (filings : FilingsKept env history w)
    (pays : PaysKeyless history (stepAt (step env container) w op) request)
    (key : keyOf env.toRuntime op w = some idempotencyKey) :
    idempotencyKey = derivedKey env.toRuntime request := by
  cases pays with
  | called args input keyless =>
    have hop : op = .initiateStkPush args := input
    subst hop
    simp only [keyOf, keyless.requested, Option.map_some, Option.some.injEq] at key
    rw [← key, keyFor_of_keyless keyless]
  | approved approvalId operatorId input filing earlier args call keyless filed =>
    have hop : op = .executeApprovedPayment approvalId operatorId := input
    subst hop
    obtain ⟨a, ha, hpayload⟩ := filings filing earlier approvalId args request call filed
    simp only [keyOf, ha, hpayload, executablePayload_approvalPayload, Option.bind_eq_bind,
      Option.bind_some, Option.some.injEq] at key
    rw [← key, keyFor_of_keyless keyless]

/-- It saves no transaction directly. -/
theorem PaysKeyless.indirect {history : List (AppStep τ π)} {st : AppStep τ π}
    {request : InitiatePayment} (pays : PaysKeyless history st request) :
    ∀ args, st.input ≠ .savePendingTransaction args := by
  intro args hinput
  cases pays with
  | called _ input => cases input.symm.trans hinput
  | approved _ _ input => cases input.symm.trans hinput

end Filings

/-! ## The rows of a step -/

section Rows

variable {τ π : Type} {env : Env} {container : AppContainer τ π}
  (store : RowStore container.transactionRepository)

/-- New rows carry one of these keys. -/
def RowStore.Grows (keys : Option String → Prop) (w w' : World τ π) : Prop :=
  (store.rows w.transactions).Grown SameIdentity (fun t => keys t.idempotencyKey)
    (store.rows w'.transactions)

/-- A message adds rows under these keys only, if it saves under them only; an update keeps the key of
its row. -/
theorem RowStore.handle_grows {keys : Option String → Prop} {m : Msg}
    (saves : ∀ args, m = .transactions (.savePendingTransaction args) → keys args.idempotencyKey)
    (w : World τ π) : store.Grows keys w (handle env container m w).2 := by
  have spared : (handle env container m w).2.transactions = w.transactions →
      store.Grows keys w (handle env container m w).2 := by
    intro hsame
    rw [RowStore.Grows, hsame]
    exact .refl SameIdentity.refl _
  cases m with
  | transactions m =>
    by_cases hsave : ∃ args, m = .savePendingTransaction args
    · obtain ⟨args, rfl⟩ := hsave
      cases store.save env args w.ambient w.transactions with
      | refused e answer same =>
        have hrows : store.rows (handle env container
          (.transactions (.savePendingTransaction args)) w).2.transactions = _ := same
        rw [RowStore.Grows, hrows]
        exact .refl SameIdentity.refl _
      | stored createdAt updatedAt drawn put =>
        have hrows : store.rows (handle env container
          (.transactions (.savePendingTransaction args)) w).2.transactions = _ := put
        rw [RowStore.Grows, hrows]
        exact Keyed.grown_put SameIdentity.refl _ (saves args rfl)
    · exact (store.keeps env m w.ambient w.transactions fun args h => hsave ⟨args, h⟩).grown
  | provider m => cases m <;> exact spared rfl
  | _ => exact spared rfl

theorem RowStore.grows_refl (keys : Option String → Prop) (w : World τ π) : store.Grows keys w w :=
  .refl SameIdentity.refl _

theorem RowStore.grows_trans (keys : Option String → Prop) (w w' w'' : World τ π)
    (h : store.Grows keys w w') (h' : store.Grows keys w' w'') : store.Grows keys w w'' := by
  refine h.trans (fun _ _ _ => SameIdentity.trans) (fun t u htu hkey => ?_) h'
  rw [htu.idempotencyKey]
  exact hkey

/-- A message that saves a transaction saves it under this key. -/
def Msg.SavesUnder (idempotencyKey : String) : Msg → Prop
  | .transactions (.savePendingTransaction args) => args.idempotencyKey = some idempotencyKey
  | _ => True

theorem sends_executeStkPush_under (request : InitiatePayment) (idempotencyKey : String) :
    (executeStkPush request idempotencyKey).Sends (Msg.SavesUnder idempotencyKey) := by
  refine .bind ((sends_ask _).mpr trivial) fun found => ?_
  cases found with
  | some t => trivial
  | none =>
    refine .bind (.attempt ((sends_ask _).mpr trivial)) fun answer => ?_
    cases answer with
    | error e => exact .bind ((sends_ask _).mpr trivial) fun _ => trivial
    | ok response =>
      exact .bind ((sends_ask _).mpr rfl) fun t => .bind ((sends_ask _).mpr trivial) fun _ =>
        .bind ((sends_ask _).mpr trivial) fun _ => trivial

/-- **What rows a step adds**: those of its push, under the key of its operation, which is the key
given, the one derived, or the one in the payload of the approved request. -/
theorem RowStore.step_grows {op : Op} (indirect : ∀ args, op ≠ .savePendingTransaction args)
    (w : World τ π) :
    store.Grows (fun key => key.isSome ∧ keyOf env.toRuntime op w = key) w
      (step env container op w).2 := by
  cases execution_of env container op indirect w with
  | silent observed =>
    refine observed.related (store.grows_refl _) (store.grows_trans _) fun m hm v => ?_
    refine store.handle_grows ?_ v
    rintro args rfl
    exact absurd hm id
  | pushes request idempotencyKey key w₁ idle _ _ _ _ after =>
    have hpush : store.Grows (fun key => key = some idempotencyKey) w₁
        (Prog.run (handle env container) (executeStkPush request idempotencyKey) w₁).2 := by
      refine Prog.run_related (store.grows_refl _) (store.grows_trans _) (fun m hm v => ?_)
        (sends_executeStkPush_under request idempotencyKey) w₁
      refine store.handle_grows ?_ v
      rintro args rfl
      exact hm
    rw [← after, RowStore.Grows, idle.1] at hpush
    refine hpush.mono fun t ht => ?_
    rw [ht]
    exact ⟨rfl, key⟩

/-! ## An answer that was there -/

/-- A push that answers with an existing transaction found it under its key. -/
theorem RowStore.push_existing {request : InitiatePayment} {idempotencyKey : String} {w : World τ π}
    {t : PendingTransaction}
    (answer : (Prog.run (handle env container) (executeStkPush request idempotencyKey) w).1 =
      .ok (responseFromExistingTransaction t)) :
    ∃ u ∈ (store.rows w.transactions).values, u.idempotencyKey = some idempotencyKey ∧
      u.transactionId = t.transactionId := by
  cases push_cases env container request idempotencyKey w with
  | unread e _ raised => cases raised.symm.trans answer
  | existing u found replied =>
    have hresponse := Except.ok.inj (replied.symm.trans answer)
    have hid : u.transactionId = t.transactionId :=
      Option.some.inj (congrArg PaymentResponse.transactionId hresponse)
    have hfound : keyMatch idempotencyKey (store.rows w.transactions) = some u := by
      rcases (store.lookup env idempotencyKey w.ambient w.transactions).2 with hread | ⟨e, hfailed⟩
      · exact Except.ok.inj (hread.symm.trans found)
      · cases hfailed.symm.trans found
    exact ⟨u, List.mem_of_find?_eq_some hfound, by simpa using List.find?_some hfound, hid⟩
  | declined e _ _ _ replied =>
    have hresponse := Except.ok.inj (replied.symm.trans answer)
    cases congrArg PaymentResponse.transactionId hresponse
  | lost _ _ _ _ e _ _ raised => cases raised.symm.trans answer
  | recorded response _ _ _ u _ _ replied =>
    have hresponse := Except.ok.inj (replied.symm.trans answer)
    exact absurd (congrArg PaymentResponse.reason hresponse) (by simp [initiated,
      responseFromExistingTransaction])

/-- A call that names a transaction is a push. -/
theorem initiate_named {args : InitiateStkPush} {w : World τ π} {response : PaymentResponse}
    (answer : (Prog.run (handle env container)
      (container.paymentService.initiateStkPush env.toRuntime args) w).1 = .ok response)
    (named : response.transactionId.isSome) :
    ∃ request, requestedPayment args = some request ∧
      container.paymentService.initiateStkPush env.toRuntime args =
        executeStkPush request (keyFor env.toRuntime args request) := by
  have hprogram := initiation_program env container args
  generalize container.paymentService.initiateStkPush env.toRuntime args = p at hprogram answer ⊢
  cases hprogram with
  | pays request requested => exact ⟨request, requested, rfl⟩
  | files decision request =>
    simp only [requireApproval, Prog.run_bind, run_ask] at answer
    split at answer
    next =>
      cases answer
      cases named
    next => cases answer
  | refuses response' unnamed =>
    cases answer
    rw [unnamed] at named
    cases named

/-- A step that pays a call without a key and answers with an existing transaction found it under the
key of its operation. -/
theorem RowStore.existing_found {history : List (AppStep τ π)} {w : World τ π} {op : Op}
    {request : InitiatePayment} {t : PendingTransaction}
    (pays : PaysKeyless history (stepAt (step env container) w op) request)
    (answers : AnswersExisting t (step env container op w).1) :
    ∃ idempotencyKey, keyOf env.toRuntime op w = some idempotencyKey ∧
      ∃ u ∈ (store.rows w.transactions).values, u.idempotencyKey = some idempotencyKey ∧
        u.transactionId = t.transactionId := by
  obtain ⟨reply, hreply, hpayment⟩ := answers
  cases pays with
  | called args input keyless =>
    have hop : op = .initiateStkPush args := input
    subst hop
    simp only [step, program, Prog.run_map] at hreply
    cases hrun : (Prog.run (handle env container)
        (container.paymentService.initiateStkPush env.toRuntime args) w).1 with
    | error e =>
      rw [hrun] at hreply
      cases hreply
    | ok response =>
      rw [hrun] at hreply
      cases hreply
      cases hpayment
      obtain ⟨request', requested, hprogram⟩ := initiate_named hrun rfl
      rw [hprogram] at hrun
      refine ⟨keyFor env.toRuntime args request', ?_, store.push_existing hrun⟩
      simp only [keyOf, requested, Option.map_some]
  | approved approvalId operatorId input filing earlier args call keyless filed =>
    have hop : op = .executeApprovedPayment approvalId operatorId := input
    subst hop
    cases execute_cases env container approvalId operatorId w with
    | unpaid response answer unnamed =>
      cases answer.symm.trans hreply
      cases unnamed _ hpayment
    | pushed a stored request' idempotencyKey named now w₁ idle _ response answer _ =>
      refine ⟨idempotencyKey, ?_, ?_⟩
      · simp only [keyOf, stored, named, Option.bind_eq_bind, Option.bind_some]
      · rw [← idle.1]
        refine @RowStore.push_existing τ π env container store request' idempotencyKey w₁ t ?_
        cases hrun : (Prog.run (handle env container) (executeStkPush request' idempotencyKey)
            w₁).1 with
        | error e =>
          rw [hrun] at answer
          cases answer.symm.trans hreply
        | ok paid =>
          rw [hrun] at answer
          cases answer.symm.trans hreply
          cases hpayment
          rfl

end Rows

/-! ## The theorem -/

section Theorem

variable {τ π : Type} {env : Env} {container : AppContainer τ π}
  (store : RowStore container.transactionRepository)

/-- A row that a step creates carries the key of its operation. -/
theorem RowStore.created_under {w : World τ π} {op : Op} {transactionId : String}
    (indirect : ∀ args, op ≠ .savePendingTransaction args)
    (created : Creates store transactionId (stepAt (step env container) w op)) :
    ∃ idempotencyKey, keyOf env.toRuntime op w = some idempotencyKey ∧
      ∃ row ∈ (store.rows (step env container op w).2.transactions).values,
        row.transactionId = transactionId ∧ row.idempotencyKey = some idempotencyKey := by
  obtain ⟨habsent, hpresent⟩ := created
  obtain ⟨row, hrow⟩ := Option.isSome_iff_exists.mp hpresent
  have hid : row.transactionId = transactionId := Keyed.key_of_get hrow
  rcases store.step_grows indirect w row (Keyed.mem_of_get hrow) with
    ⟨old, hold, hsame⟩ | ⟨hsome, hkeyOf⟩
  · exact absurd (hsame.transactionId.symm.trans hid) (Keyed.get_eq_none_iff.mp habsent old hold)
  · obtain ⟨key, hkey⟩ := Option.isSome_iff_exists.mp hsome
    exact ⟨key, hkeyOf.trans hkey, row, Keyed.mem_of_get hrow, hid, hkey⟩

/-- A row lasts in a run. -/
theorem RowStore.row_lasts {w : World τ π} (ops : List Op)
    (issued : RowsIssued env w.ambient (store.rows w.transactions)) {t : PendingTransaction}
    (stored : t ∈ (store.rows w.transactions).values) :
    ∃ u ∈ (store.rows (final (step env container) w ops).transactions).values, SameIdentity t u := by
  have hextends := @state_invariant _ _ _ (step env container)
    (fun v : World τ π => RowsIssued env v.ambient (store.rows v.transactions) ∧
      (store.rows w.transactions).Extends SameIdentity (store.rows v.transactions)) w
    ⟨issued, .refl SameIdentity.refl _⟩ (fun v op h => ?_) ops
  · exact hextends.2.mem stored
  · obtain ⟨hissued, hmore⟩ := store.run_extends (program container env.toRuntime op) h.1
    exact ⟨hissued, h.2.trans (R := SameIdentity) (fun _ _ _ => SameIdentity.trans) hmore⟩

/-- A transaction that answers a call without a key carries the key derived for it, whatever call
created it. -/
theorem derivedKey_of_answered {w : World τ π}
    (issued : RowsIssued env w.ambient (store.rows w.transactions)) (empty : w.approvals = Keyed.empty)
    {ops : List Op} {request other : InitiatePayment}
    (answered : AnsweredWith store (trace (step env container) w ops) request other) :
    derivedKey env.toRuntime other = derivedKey env.toRuntime request := by
  obtain ⟨earlier, creation, between, st, later, t, hrun, hpaid, hcreated, hpays, hanswers⟩ := answered
  obtain ⟨before, op, after, rfl, hhistory, rfl, -⟩ := trace_split hrun
  rw [hhistory] at hpays
  obtain ⟨first, op', rest, rfl, rfl, rfl, -⟩ := trace_split hhistory.symm
  set v := final (step env container) w first
  have hissued : RowsIssued env v.ambient (store.rows v.transactions) :=
    state_invariant (I := fun v : World τ π => RowsIssued env v.ambient (store.rows v.transactions))
      issued (fun v op h => (store.run_extends (program container env.toRuntime op) h).1) first
  have hafter : RowsIssued env (step env container op' v).2.ambient
      (store.rows (step env container op' v).2.transactions) :=
    (store.run_extends (program container env.toRuntime op') hissued).1
  have hlater : final (step env container) (step env container op' v).2 rest =
      final (step env container) w (first ++ op' :: rest) := by
    rw [final_append]
    rfl
  obtain ⟨key', hkeyOf', row, hrow, hid, hkey'⟩ := store.created_under hpaid.indirect hcreated
  obtain ⟨key, hkeyOf, found, hfound, hkey, hfoundId⟩ := store.existing_found hpays hanswers
  -- the row that the later call found is the one that the other call created
  obtain ⟨kept, hkept, hsame⟩ := store.row_lasts rest hafter hrow
  rw [hlater] at hkept
  have hone : found = kept := by
    have hgot := Keyed.mem_values_iff.mp hfound
    rw [hfoundId, ← hid, ← hsame.transactionId] at hgot
    exact Option.some.inj (hgot.symm.trans (Keyed.mem_values_iff.mp hkept))
  have hkeys : key' = key := by
    rw [← Option.some_inj, ← hkey', ← hkey, hone, hsame.idempotencyKey]
  rw [← keyOf_paysKeyless (filings_run empty first).2 hpaid hkeyOf', hkeys,
    keyOf_paysKeyless (filings_run empty _).2 hpays hkeyOf]

end Theorem

/-- **What the derived key tells apart**, where the digest is injective: a payment from every other
exactly where it is plain; and in every run over a store of rows, a call without a key is answered with
the transaction of another one for the same payment only, where one of the two payments is plain. -/
theorem derived_keys_separate_plain (env : Env) (injective : Function.Injective env.sha256Hexdigest) :
    (∀ request, (∀ other, derivedKey env.toRuntime other = derivedKey env.toRuntime request →
        other = request) ↔ Plain request) ∧
      ∀ (τ π : Type) (container : AppContainer τ π)
        (store : RowStore container.transactionRepository) (w : World τ π) (ops : List Op),
        RowsIssued env w.ambient (store.rows w.transactions) → w.approvals = Keyed.empty →
        ∀ request other, AnsweredWith store (trace (step env container) w ops) request other →
          Plain request ∨ Plain other → other = request := by
  refine ⟨separated_iff injective, ?_⟩
  intro τ π container store w ops issued empty request other answered hplain
  have hkey := derivedKey_of_answered store issued empty answered
  rcases hplain with hplain | hplain
  · exact (separated_iff injective request).mpr hplain other hkey
  · exact ((separated_iff injective other).mpr hplain request hkey.symm).symm

/-- The payment of an invoice. -/
def invoicePayment : InitiatePayment := ⟨"254700000000", 1000, "INV-009", "Invoice payment"⟩

theorem plain_invoicePayment : Plain invoicePayment where
  phoneNumber part hpart := by
    have hnone : ("254700000000".toList.splitOn '|').tail = [] := by decide
    rw [invoicePayment, hnone] at hpart
    cases hpart
  accountReference := by decide
  description := by decide

/-- A call for a payment, without a key. -/
def callFor (request : InitiatePayment) : Op :=
  .initiateStkPush ⟨some request.phoneNumber, some request.amount, request.accountReference,
    request.description, none⟩

/-- The key of an invoice is its own, and a repeated call for it is answered with no other payment's
transaction. -/
theorem derived_keys_separate_plain_invoice :
    (∀ other, derivedKey Env.still.toRuntime other = derivedKey Env.still.toRuntime invoicePayment →
        other = invoicePayment) ∧
      ∀ other, AnsweredWith InMemoryTransactionRepository.rowStore (trace (step .still (.mock {}))
          (start Keyed.empty ()) [callFor invoicePayment, callFor invoicePayment])
          invoicePayment other → other = invoicePayment := by
  have h := derived_keys_separate_plain .still fun _ _ h => h
  refine ⟨(h.1 invoicePayment).mpr plain_invoicePayment, fun other answered => ?_⟩
  refine h.2 _ _ (.mock {}) InMemoryTransactionRepository.rowStore (start Keyed.empty ()) _ ?_ rfl
    invoicePayment other answered (Or.inl plain_invoicePayment)
  intro t ht
  cases ht

/-- Two payments with a bar in a text: the reference of one is a part of the other's. -/
def barInReference : InitiatePayment := ⟨"254700000000", 1000, "INV|1", "goods"⟩

def barInDescription : InitiatePayment := ⟨"254700000000", 1000, "INV", "1|goods"⟩

/-- Their keys are one, and the call for the second is answered with the transaction of the first. -/
theorem derived_keys_collide :
    Function.Injective Env.still.sha256Hexdigest ∧ barInReference ≠ barInDescription ∧
      derivedKey Env.still.toRuntime barInReference = derivedKey Env.still.toRuntime barInDescription ∧
      AnsweredWith InMemoryTransactionRepository.rowStore (trace (step .still (.mock {}))
        (start Keyed.empty ()) [callFor barInReference, callFor barInDescription])
        barInDescription barInReference := by
  refine ⟨fun _ _ h => h, by decide, by decide, ?_⟩
  refine ⟨[], _, [], _, [], _, rfl, .called _ rfl ⟨Or.inl rfl, rfl⟩, ⟨rfl, ?_⟩,
    .called _ rfl ⟨Or.inl rfl, rfl⟩, _, rfl, rfl⟩
  rfl

end MpesaMcp
