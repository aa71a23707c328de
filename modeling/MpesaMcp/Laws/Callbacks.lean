import MpesaMcp.Laws.Frames

/-!
# What one callback does

The handler reads four fields of a payload (`readFields`), looks the transaction up, and asks for an
update exactly where the transaction is pending and agrees with the callback
(`CallbackFields.Accepts`). `process_cases` says so for any repository, in terms of the answers of
its two methods; `post_cases` says what the route adds in front of the handler.
-/

set_option autoImplicit false

namespace MpesaMcp

open Library Python StkCallbackHandler

/-! ## The decision of the handler -/

/-- The fields of a callback that names a transaction and a result. -/
structure CallbackFields where
  checkoutRequestId : String
  resultCode : Int
  resultDescription : String
  metadata : PyDict

/-- The fields `process` reads of a payload; an infinite result code raises. -/
def readFields (py : Runtime) (payload : PyDict) : Except Exn (Option CallbackFields) :=
  match extractCallback payload with
  | none => .ok none
  | some callback =>
    match getInt callback "ResultCode" with
    | .error e => .error e
    | .ok resultCode =>
      .ok do
        let checkoutRequestId ← getString py callback "CheckoutRequestID"
        let resultCode ← resultCode
        let resultDescription ← getString py callback "ResultDesc"
        some ⟨checkoutRequestId, resultCode, resultDescription, extractMetadata callback⟩

/-- What the fields were read from. -/
structure ReadFrom (py : Runtime) (payload callback : PyDict) (f : CallbackFields) : Prop where
  extracted : extractCallback payload = some callback
  checkoutRequestId : getString py callback "CheckoutRequestID" = some f.checkoutRequestId
  resultCode : getInt callback "ResultCode" = .ok (some f.resultCode)
  resultDescription : getString py callback "ResultDesc" = some f.resultDescription
  metadata : f.metadata = extractMetadata callback

/-- Fields that were read come from a callback object in the payload. -/
theorem readFrom_of_readFields {py : Runtime} {payload : PyDict} {f : CallbackFields}
    (read : readFields py payload = .ok (some f)) : ∃ callback, ReadFrom py payload callback f := by
  unfold readFields at read
  cases hcallback : extractCallback payload with
  | none => simp [hcallback] at read
  | some callback =>
    cases hcode : getInt callback "ResultCode" with
    | error e => simp [hcallback, hcode] at read
    | ok resultCode =>
      simp only [hcallback, hcode, Except.ok.injEq, Option.bind_eq_bind, Option.bind_eq_some_iff]
        at read
      obtain ⟨id, hid, code, rfl, description, hdescription, hf⟩ := read
      cases hf
      exact ⟨callback, hcallback, hid, hcode, hdescription, rfl⟩

namespace CallbackFields

variable (py : Runtime) (f : CallbackFields)

/-- The amount of the callback, where it reads as one. -/
def amount : Option Int :=
  match getInt f.metadata "Amount" with
  | .ok amount => amount
  | .error _ => none

/-- A success callback carries an amount, a receipt number and a phone number. -/
def Complete : Prop :=
  f.resultCode = 0 → f.amount.isSome ∧ (getString py f.metadata "MpesaReceiptNumber").isSome ∧
    (getString py f.metadata "PhoneNumber").isSome

/-- The callback moves this transaction: it is pending, and what the callback says of amount and
phone number agrees with it. -/
structure Accepts (t : PendingTransaction) : Prop where
  pending : t.status = .pending
  finite : ∃ amount, getInt f.metadata "Amount" = .ok amount
  complete : f.Complete py
  amount : ∀ amount ∈ f.amount, amount = t.amount
  phone : ∀ phone ∈ getString py f.metadata "PhoneNumber",
    normalizePhoneNumber phone = normalizePhoneNumber t.phoneNumber

/-- The update an accepted callback asks for. -/
def update : UpdateTransactionStatus where
  checkoutRequestId := f.checkoutRequestId
  status := (targetStatus f.resultCode).value
  resultCode := f.resultCode
  resultDescription := f.resultDescription
  mpesaReceiptNumber := getString py f.metadata "MpesaReceiptNumber"

variable {f} in
/-- The amount of a callback is what `_get_int` makes of it. -/
theorem amount_of_getInt {amount : Option Int} (h : getInt f.metadata "Amount" = .ok amount) :
    f.amount = amount := by
  simp only [CallbackFields.amount, h]

end CallbackFields

/-- The statuses of a callback that was applied. -/
def CallbackStatus.Applied (status : CallbackStatus) : Prop :=
  status = .completed ∨ status = .failed

instance (status : CallbackStatus) : Decidable status.Applied :=
  inferInstanceAs (Decidable (_ ∨ _))

/-- A callback that is applied is reported as completed or failed, whatever its result code. -/
theorem applied_targetOutcome (resultCode : Int) : (targetOutcome resultCode).Applied := by
  unfold targetOutcome
  split
  · exact Or.inl rfl
  · exact Or.inr rfl

/-- A callback leads to a terminal status, so it settles what it is applied to. -/
theorem terminal_targetStatus (resultCode : Int) : (targetStatus resultCode).Terminal := by
  unfold targetStatus
  split <;> decide

/-- Only the result code 0 completes a payment. -/
theorem targetStatus_eq_completed {resultCode : Int} :
    targetStatus resultCode = .completed ↔ resultCode = 0 := by
  unfold targetStatus
  split <;> simp_all

/-- The handler raised, or answered that the callback was not applied. -/
def Unapplied : Except Exn CallbackProcessingResult → Prop
  | .ok result => ¬ result.status.Applied
  | .error _ => True

/-- The answer about a callback that was applied. -/
def AppliedAs (f : CallbackFields) (output : Except Exn CallbackProcessingResult) : Prop :=
  ∃ result, output = .ok result ∧ result.status = targetOutcome f.resultCode ∧
    result.checkoutRequestId = some f.checkoutRequestId

/-! ## The programs of the handler -/

/-- An infinite float. -/
def Infinite (value : PyValue) : Prop := ∃ neg, value = .float (.inf neg)

/-- `int` refuses many values, and `_get_int` takes them all for a missing number, except infinity,
which it lets through as `OverflowError`. -/
theorem getInt_cases (source : PyDict) (key : String) :
    (Infinite (lookup source key) ∧ ∃ message, getInt source key = .error (.overflowError message)) ∨
    (¬ Infinite (lookup source key) ∧ ∃ i, getInt source key = .ok i) := by
  unfold getInt
  cases lookup source key with
  | float f =>
    cases f with
    | inf neg => exact Or.inl ⟨⟨neg, rfl⟩, _, rfl⟩
    | _ =>
      refine Or.inr ⟨?_, _, rfl⟩
      rintro ⟨neg, h⟩
      cases h
  | str s =>
    refine Or.inr ⟨?_, ?_⟩
    · rintro ⟨neg, h⟩
      cases h
    · dsimp only [PyValue.toInt]
      cases intOfText s <;> exact ⟨_, rfl⟩
  | _ =>
    refine Or.inr ⟨?_, _, rfl⟩
    rintro ⟨neg, h⟩
    cases h

/-- An event whose type and actor fit the columns of an audit table. -/
structure AuditEvent.Short (event : AuditEvent) : Prop where
  eventType : event.eventType.length ≤ 128
  actor : ∀ actor ∈ event.actor, actor.length ≤ 128

/-- The event of a report and the answer it is about. -/
def report (event : AuditEvent) (result : CallbackProcessingResult) : App CallbackProcessingResult := do
  ask (.logEvent event)
  pure result

/-- A program that only reports why a callback is not applied. -/
def Reports (p : App CallbackProcessingResult) : Prop :=
  ∃ event result, event.Short ∧ ¬ result.status.Applied ∧ p = report event result

/-- The events of the handler fit the columns of the audit table, since their source is one short text. -/
theorem short_mpesaCallback {eventType : String} (short : eventType.length ≤ 128) (payload : PyDict) :
    AuditEvent.Short ⟨eventType, payload, some "mpesa_callback"⟩ :=
  ⟨short, fun actor h => by cases h; decide⟩

/-- A payload that is not understood is reported, and no transaction is looked for. -/
theorem reports_invalidPayloadResult (checkoutRequestId : Option String) :
    Reports (invalidPayloadResult checkoutRequestId) :=
  ⟨_, _, short_mpesaCallback (by decide) _, (by decide : ¬ CallbackStatus.Applied .invalidCallback), rfl⟩

/-- A callback for a payment that is not stored is reported. -/
theorem reports_unknownTransactionResult (checkoutRequestId : String) :
    Reports (unknownTransactionResult checkoutRequestId) :=
  ⟨_, _, short_mpesaCallback (by decide) _, (by decide : ¬ CallbackStatus.Applied .unknownTransaction),
    rfl⟩

/-- A callback that disagrees with its transaction is reported under the type of the mismatch, and
updates nothing. -/
theorem reports_mismatchResult {eventType : String} (short : eventType.length ≤ 128)
    {result : CallbackProcessingResult} (h : ¬ result.status.Applied) :
    Reports (mismatchResult eventType result) :=
  ⟨_, _, short_mpesaCallback short _, h, rfl⟩

section Programs

variable (py : Runtime) (f : CallbackFields) (t : PendingTransaction)

/-- A callback that comes too late is reported. Its amount is converted once more for the report, which
is where an infinite one would raise. -/
theorem reports_invalidTransitionResult {metadata : PyDict} {amount : Option Int}
    (finite : getInt metadata "Amount" = .ok amount) (e : Exn) (checkoutRequestId : String)
    (resultCode : Int) (resultDescription : String) :
    Reports (invalidTransitionResult py e checkoutRequestId resultCode resultDescription metadata) := by
  unfold invalidTransitionResult
  rw [finite]
  exact ⟨_, _, ⟨(by decide : "stk_callback_invalid_transition".length ≤ 128), fun actor h => by cases h⟩,
    (by decide : ¬ CallbackStatus.Applied .invalidTransition), rfl⟩

/-- What a part of the handler that meets the stored transaction comes down to: it raises on an
infinite amount, it reports, or it applies the callback. -/
inductive CheckProgram (p : App CallbackProcessingResult) : Prop
  | infinite (infinite : Infinite (lookup f.metadata "Amount")) (refuses : ¬ f.Accepts py t)
      (program : ∃ message, p = .raise (.overflowError message))
  | reports (finite : ¬ Infinite (lookup f.metadata "Amount")) (refuses : ¬ f.Accepts py t)
      (program : Reports p)
  | applies (accepts : f.Accepts py t) (program : p =
      applyCallback py f.checkoutRequestId f.resultCode f.resultDescription f.metadata)

/-- An accepted callback has a finite amount. -/
theorem CallbackFields.Accepts.not_infinite {py : Runtime} {f : CallbackFields}
    {t : PendingTransaction} (h : f.Accepts py t) : ¬ Infinite (lookup f.metadata "Amount") := by
  obtain ⟨amount, hok⟩ := h.finite
  rcases getInt_cases f.metadata "Amount" with ⟨-, message, hraises⟩ | ⟨hfinite, -⟩
  · cases hraises.symm.trans hok
  · exact hfinite

/-- The checks against the stored transaction. -/
theorem checkTransaction_program (complete : f.Complete py) :
    CheckProgram py f t (checkTransaction py t f.checkoutRequestId f.resultCode f.resultDescription
      f.metadata) := by
  unfold checkTransaction
  rcases getInt_cases f.metadata "Amount" with
    ⟨hinfinite, message, hraises⟩ | ⟨hfinite, amount, hamount⟩
  · refine .infinite hinfinite (fun accepts => accepts.not_infinite hinfinite) ⟨message, ?_⟩
    cases validateTransition t.status (targetStatus f.resultCode).value with
    | error e =>
      unfold invalidTransitionResult
      rw [hraises]
      rfl
    | ok status =>
      rw [hraises]
      rfl
  · cases hvalid : validateTransition t.status (targetStatus f.resultCode).value with
    | error e =>
      refine .reports hfinite (fun accepts => ?_) (reports_invalidTransitionResult py hamount _ _ _ _)
      have hok := validateTransition_ok_iff.mpr
        ⟨accepts.pending, terminal_targetStatus f.resultCode, rfl⟩
      rw [hvalid] at hok
      cases hok
    | ok status =>
      have hread := CallbackFields.amount_of_getInt hamount
      rw [hamount]
      by_cases hdiffers : amount.isSome ∧ amount ≠ some t.amount
      · refine .reports hfinite (fun accepts => ?_) ?_
        · obtain ⟨n, rfl⟩ := Option.isSome_iff_exists.mp hdiffers.1
          exact hdiffers.2 (congrArg some (accepts.amount n hread))
        · show Reports (ite _ _ _)
          rw [if_pos hdiffers]
          exact reports_mismatchResult (by decide) (by decide : ¬ CallbackStatus.Applied .amountMismatch)
      · have hagree : ∀ n ∈ f.amount, n = t.amount := by
          rw [hread]
          rintro n rfl
          by_contra hne
          exact hdiffers ⟨rfl, fun h => hne (Option.some.inj h)⟩
        by_cases hphone : (getString py f.metadata "PhoneNumber").isSome ∧
            (getString py f.metadata "PhoneNumber").map normalizePhoneNumber ≠
              some (normalizePhoneNumber t.phoneNumber)
        · refine .reports hfinite (fun accepts => ?_) ?_
          · obtain ⟨phone, hsome⟩ := Option.isSome_iff_exists.mp hphone.1
            refine hphone.2 ?_
            rw [hsome, Option.map_some, accepts.phone phone hsome]
          · show Reports (ite _ _ (ite _ _ _))
            rw [if_neg hdiffers, if_pos hphone]
            exact reports_mismatchResult (by decide)
              (by decide : ¬ CallbackStatus.Applied .phoneMismatch)
        · refine .applies ⟨(validateTransition_ok_iff.mp hvalid).1, ⟨amount, hamount⟩, complete, hagree,
            ?_⟩ ?_
          · intro phone hsome
            by_contra hne
            refine hphone ⟨Option.isSome_iff_exists.mpr ⟨phone, hsome⟩, ?_⟩
            rw [Option.mem_def.mp hsome, Option.map_some]
            exact fun h => hne (Option.some.inj h)
          · show ite _ _ (ite _ _ _) = _
            rw [if_neg hdiffers, if_neg hphone]

/-- The metadata of a success callback is complete, incomplete, or raises. -/
theorem hasSuccessMetadata_cases :
    (∃ e, hasSuccessMetadata py f.metadata = .error e ∧ getInt f.metadata "Amount" = .error e) ∨
    (∃ complete, hasSuccessMetadata py f.metadata = .ok complete ∧
      (complete = true ↔ f.amount.isSome ∧ (getString py f.metadata "MpesaReceiptNumber").isSome ∧
        (getString py f.metadata "PhoneNumber").isSome)) := by
  unfold hasSuccessMetadata CallbackFields.amount
  cases getInt f.metadata "Amount" with
  | error e => exact Or.inl ⟨e, rfl, rfl⟩
  | ok amount =>
    refine Or.inr ⟨_, rfl, ?_⟩
    simp only [Bool.and_eq_true, and_assoc]

/-- What the handler runs on the transaction that a callback names. -/
def checkFields : App CallbackProcessingResult := do
  let complete ← if f.resultCode = 0 then lift (hasSuccessMetadata py f.metadata) else pure true
  if complete then
    checkTransaction py t f.checkoutRequestId f.resultCode f.resultDescription f.metadata
  else invalidPayloadResult (some f.checkoutRequestId)

/-- What it runs on the answer to the lookup. -/
def checkFound : Option PendingTransaction → App CallbackProcessingResult
  | none => unknownTransactionResult f.checkoutRequestId
  | some t => checkFields py f t

/-- From its fields on, the handler is one lookup and a program on what was found. -/
theorem processFields_eq {callback : PyDict} {f : CallbackFields}
    (metadata : f.metadata = extractMetadata callback) :
    processFields py callback f.checkoutRequestId f.resultCode f.resultDescription =
      ask (.transactions (.findByCheckoutRequestId f.checkoutRequestId)) >>= checkFound py f := by
  refine congrArg (ask _ >>= ·) (funext fun found => ?_)
  cases found with
  | none => rfl
  | some t =>
    unfold checkFound checkFields
    rw [metadata]

/-- The transaction that a callback names is met by one of three programs. -/
theorem checkFields_program : CheckProgram py f t (checkFields py f t) := by
  unfold checkFields
  by_cases hcode : f.resultCode = 0
  · simp only [if_pos hcode]
    rcases hasSuccessMetadata_cases py f with ⟨e, hmeta, hamount⟩ | ⟨complete, hmeta, hiff⟩
    · rcases getInt_cases f.metadata "Amount" with ⟨hinfinite, message, hraises⟩ | ⟨-, amount, hok⟩
      · cases hamount.symm.trans hraises
        rw [hmeta]
        exact .infinite hinfinite (fun accepts => accepts.not_infinite hinfinite) ⟨message, rfl⟩
      · cases hamount.symm.trans hok
    · rw [hmeta]
      cases complete with
      | true => exact checkTransaction_program py f t fun _ => hiff.mp rfl
      | false =>
        have hrefuses : ¬ f.Accepts py t := fun accepts =>
          absurd (hiff.mpr (accepts.complete hcode)) (by decide)
        have hfinite : ¬ Infinite (lookup f.metadata "Amount") := by
          rcases getInt_cases f.metadata "Amount" with ⟨-, message, hraises⟩ | ⟨hfinite, -⟩
          · simp [hasSuccessMetadata, hraises] at hmeta
          · exact hfinite
        exact .reports hfinite hrefuses (reports_invalidPayloadResult _)
  · simp only [if_neg hcode]
    exact checkTransaction_program py f t fun h => absurd h hcode

/-- The program of the handler once a callback is counted. -/
inductive ProcessProgram (payload : PyDict) (p : App CallbackProcessingResult) : Prop
  | infinite (callback : PyDict) (extracted : extractCallback payload = some callback)
      (infinite : Infinite (lookup callback "ResultCode"))
      (unread : ∀ f, readFields py payload ≠ .ok (some f))
      (program : ∃ message, p = .raise (.overflowError message))
  | unread (finite : ∀ callback, extractCallback payload = some callback →
        ¬ Infinite (lookup callback "ResultCode"))
      (unread : ∀ f, readFields py payload ≠ .ok (some f)) (program : Reports p)
  | read (f : CallbackFields) (finite : ∀ callback, extractCallback payload = some callback →
        ¬ Infinite (lookup callback "ResultCode"))
      (read : readFields py payload = .ok (some f))
      (program : p = ask (.transactions (.findByCheckoutRequestId f.checkoutRequestId)) >>=
        checkFound py f)

/-- The handler counts a callback, reads its fields, looks the transaction up and checks it. This is
its program with the branches that end early named, on which every result about callbacks rests. -/
theorem process_program (payload : PyDict) :
    ∃ p, process py payload = (ask (.increment .callbackReceived) >>= fun _ => p) ∧
      ProcessProgram py payload p := by
  unfold process
  refine ⟨_, rfl, ?_⟩
  cases hcallback : extractCallback payload with
  | none =>
    refine .unread (fun callback h => ?_) (fun f h => ?_) (reports_invalidPayloadResult none)
    · cases hcallback.symm.trans h
    · simp [readFields, hcallback] at h
  | some callback =>
    dsimp only
    rcases getInt_cases callback "ResultCode" with
      ⟨hinfinite, message, hraises⟩ | ⟨hfinite, resultCode, hcode⟩
    · rw [hraises]
      refine .infinite callback hcallback hinfinite (fun f h => ?_) ⟨message, rfl⟩
      simp [readFields, hcallback, hraises] at h
    · have hread : ∀ callback', extractCallback payload = some callback' →
          ¬ Infinite (lookup callback' "ResultCode") := by
        intro callback' h
        cases hcallback.symm.trans h
        exact hfinite
      rw [hcode]
      cases hid : getString py callback "CheckoutRequestID" with
      | none =>
        refine .unread hread (fun f h => ?_) (reports_invalidPayloadResult none)
        simp [readFields, hcallback, hcode, hid] at h
      | some checkoutRequestId =>
        cases resultCode with
        | none =>
          refine .unread hread (fun f h => ?_) (reports_invalidPayloadResult (some checkoutRequestId))
          simp [readFields, hcallback, hcode, hid] at h
        | some code =>
          cases hdescription : getString py callback "ResultDesc" with
          | none =>
            refine .unread hread (fun f h => ?_) (reports_invalidPayloadResult (some checkoutRequestId))
            simp [readFields, hcallback, hcode, hid, hdescription] at h
          | some resultDescription =>
            let f : CallbackFields :=
              ⟨checkoutRequestId, code, resultDescription, extractMetadata callback⟩
            refine .read f hread ?_ (@processFields_eq py callback f rfl)
            simp [readFields, hcallback, hcode, hid, hdescription, f]

end Programs

/-! ## The handler over a repository -/

section Handler

variable {τ : Type} (env : Env) (repository : TransactionRepository τ)

/-- The repository's answer to the lookup of a callback. -/
def lookupAnswer (f : CallbackFields) (s : Ambient × τ) :
    Except Exn (Option PendingTransaction) × Ambient × τ :=
  repository.answer env (.findByCheckoutRequestId f.checkoutRequestId) s

/-- The repository's answer to the update of a callback. -/
def updateAnswer (f : CallbackFields) (s : Ambient × τ) :
    Except Exn (Option PendingTransaction) × Ambient × τ :=
  repository.answer env (.updateTransactionStatus (f.update env.toRuntime)) s

/-- What the handler does to the repository, and what it answers. -/
inductive ProcessCase (payload : PyDict) (s : Ambient × τ)
    (output : Except Exn CallbackProcessingResult) (s' : Ambient × τ) : Prop
  | unread (unread : ∀ f, readFields env.toRuntime payload ≠ .ok (some f))
      (unapplied : Unapplied output) (after : s' = s)
  | unmatched (f : CallbackFields) (read : readFields env.toRuntime payload = .ok (some f))
      (unmatched : ∀ t, (lookupAnswer env repository f s).1 ≠ .ok (some t))
      (unapplied : Unapplied output) (after : s' = (lookupAnswer env repository f s).2)
  | refused (f : CallbackFields) (read : readFields env.toRuntime payload = .ok (some f))
      (t : PendingTransaction) (found : (lookupAnswer env repository f s).1 = .ok (some t))
      (refuses : ¬ f.Accepts env.toRuntime t)
      (unapplied : Unapplied output) (after : s' = (lookupAnswer env repository f s).2)
  | updated (f : CallbackFields) (read : readFields env.toRuntime payload = .ok (some f))
      (t : PendingTransaction) (found : (lookupAnswer env repository f s).1 = .ok (some t))
      (accepts : f.Accepts env.toRuntime t)
      (applied : ∀ u, (updateAnswer env repository f (lookupAnswer env repository f s).2).1 = .ok u →
        AppliedAs f output)
      (raised : ∀ e, (updateAnswer env repository f (lookupAnswer env repository f s).2).1 =
        .error e → Unapplied output)
      (after : s' = (updateAnswer env repository f (lookupAnswer env repository f s).2).2)

end Handler

/-! ## The handler in a container -/

/-- The part of the world that the repository reads and writes. -/
def World.store {τ π : Type} (w : World τ π) : Ambient × τ := (w.ambient, w.transactions)

/-- The world with this part replaced. -/
def World.withStore {τ π : Type} (w : World τ π) (s : Ambient × τ) : World τ π :=
  { w with ambient := s.1, transactions := s.2 }

@[simp] theorem World.store_withStore {τ π : Type} (w : World τ π) (s : Ambient × τ) :
    (w.withStore s).store = s := rfl

section Process

variable {τ π : Type} (env : Env) (container : AppContainer τ π)

/-- A message to the repository is answered by it over its own store; nothing else of the world moves. -/
theorem handle_transactions (m : TransactionRepositoryProtocol) (w : World τ π) :
    handle env container (.transactions m) w =
      ((container.transactionRepository.answer env m w.store).1,
        w.withStore (container.transactionRepository.answer env m w.store).2) := rfl

/-- The program answers that the callback was not applied, and leaves the store alone. -/
def Declines (p : App CallbackProcessingResult) (w : World τ π) : Prop :=
  Unapplied (Prog.run (handle env container) p w).1 ∧
    (Prog.run (handle env container) p w).2.store = w.store

/-- A callback that raises is not applied. -/
theorem declines_raise (e : Exn) (w : World τ π) : Declines env container (.raise e) w :=
  ⟨trivial, rfl⟩

/-- A callback that is only reported on is not applied. -/
theorem declines_reports {p : App CallbackProcessingResult} (h : Reports p) (w : World τ π) :
    Declines env container p w := by
  obtain ⟨event, result, -, hunapplied, rfl⟩ := h
  exact ⟨hunapplied, rfl⟩

/-- The update of an accepted callback, and the answer about it: an update that the repository refuses
is answered as a transition that is not valid, and any other exception is raised. -/
theorem run_applyCallback {f : CallbackFields}
    (finite : ∃ amount, getInt f.metadata "Amount" = .ok amount) (w : World τ π) :
    let r := Prog.run (handle env container) (applyCallback env.toRuntime f.checkoutRequestId
      f.resultCode f.resultDescription f.metadata) w
    let u := updateAnswer env container.transactionRepository f w.store
    (∀ t, u.1 = .ok t → AppliedAs f r.1) ∧ (∀ e, u.1 = .error e → Unapplied r.1) ∧
      r.2.store = u.2 := by
  obtain ⟨amount, hamount⟩ := finite
  simp only [applyCallback, Prog.run_bind, Prog.run_attempt, run_ask, handle_transactions,
    updateAnswer, CallbackFields.update]
  generalize container.transactionRepository.answer env _ w.store = u
  obtain ⟨answer, s⟩ := u
  cases answer with
  | ok t =>
    simp only [hamount, lift, Prog.run_pure, Prog.run_bind, run_ask]
    exact ⟨fun _ _ => ⟨_, rfl, rfl, rfl⟩, fun _ h => (nomatch h), rfl⟩
  | error e =>
    cases e with
    | transactionStateTransition fromStatus toStatus =>
      obtain ⟨hanswer, hstore⟩ := declines_reports env container
        (reports_invalidTransitionResult env.toRuntime hamount
          (.transactionStateTransition fromStatus toStatus) f.checkoutRequestId f.resultCode
          f.resultDescription) (w.withStore s)
      exact ⟨fun _ h => (nomatch h), fun _ _ => hanswer, hstore⟩
    | _ => exact ⟨fun _ h => (nomatch h), fun _ _ => trivial, rfl⟩

/-- A callback that the lookup matches is refused, with the transaction as it was, or applied; whether
it agrees with the transaction decides. -/
theorem matched_cases {payload : PyDict} {f : CallbackFields} {t : PendingTransaction}
    {w : World τ π} (read : readFields env.toRuntime payload = .ok (some f))
    (found : (lookupAnswer env container.transactionRepository f w.store).1 = .ok (some t)) :
    let r := Prog.run (handle env container) (checkFields env.toRuntime f t)
      (w.withStore (lookupAnswer env container.transactionRepository f w.store).2)
    ProcessCase env container.transactionRepository payload w.store r.1 r.2.store := by
  intro r
  let w₁ := w.withStore (lookupAnswer env container.transactionRepository f w.store).2
  have declined : ¬ f.Accepts env.toRuntime t →
      Declines env container (checkFields env.toRuntime f t) w₁ →
      ProcessCase env container.transactionRepository payload w.store r.1 r.2.store :=
    fun refuses h => .refused f read t found refuses h.1 h.2
  cases checkFields_program env.toRuntime f t with
  | infinite _ refuses program =>
    obtain ⟨message, hprogram⟩ := program
    exact declined refuses (hprogram ▸ declines_raise env container _ w₁)
  | reports _ refuses program => exact declined refuses (declines_reports env container program w₁)
  | applies accepts program =>
    obtain ⟨applied, raised, hstore⟩ := run_applyCallback env container accepts.finite w₁
    rw [← program] at applied raised hstore
    exact .updated f read t found accepts applied raised hstore

/-- **What `process` does**, over any repository: the callback is not understood, matches nothing, is
refused, or updates what the lookup found. Each case says what is answered and what the store is after. -/
theorem process_cases (payload : PyDict) (w : World τ π) :
    let r := Prog.run (handle env container) (process env.toRuntime payload) w
    ProcessCase env container.transactionRepository payload w.store r.1 r.2.store := by
  intro r
  -- the world once the callback is counted
  let w₀ : World τ π := { w with metrics := w.metrics.increment .callbackReceived }
  obtain ⟨p, hprocess, hp⟩ := process_program env.toRuntime payload
  have hr : r = Prog.run (handle env container) p w₀ := by
    simp only [r, hprocess, Prog.run_bind, run_ask]
    rfl
  rw [hr]
  cases hp with
  | infinite callback _ _ unread program =>
    obtain ⟨message, rfl⟩ := program
    exact .unread unread trivial rfl
  | unread _ unread program =>
    obtain ⟨hanswer, hstore⟩ := declines_reports env container program w₀
    exact .unread unread hanswer hstore
  | read f _ read program =>
    let w₁ := w.withStore (lookupAnswer env container.transactionRepository f w.store).2
    have hask : handle env container (.transactions (.findByCheckoutRequestId f.checkoutRequestId)) w₀ =
        ((lookupAnswer env container.transactionRepository f w.store).1,
          w₀.withStore (lookupAnswer env container.transactionRepository f w.store).2) := rfl
    rw [program, Prog.run_bind, run_ask, hask]
    cases hfound : (lookupAnswer env container.transactionRepository f w.store).1 with
    | error e => exact .unmatched f read (fun t h => by cases hfound.symm.trans h) trivial rfl
    | ok found =>
      cases found with
      | none =>
        obtain ⟨hanswer, hstore⟩ := declines_reports env container
          (reports_unknownTransactionResult f.checkoutRequestId)
          (w₀.withStore (lookupAnswer env container.transactionRepository f w.store).2)
        exact .unmatched f read (fun t h => by cases hfound.symm.trans h) hanswer hstore
      | some t => exact @matched_cases τ π env container payload f t w₀ read hfound

end Process

end MpesaMcp
