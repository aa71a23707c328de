import MpesaMcp.Laws.TransactionSteps

/-!
# Which callbacks complete a payment

A payment should be completed only by a callback whose result code is the number 0 and whose last
amount is the number of the transaction (`ExactSuccess`). The handler compares after `int`, which
cuts fractions off and takes a boolean for a number. Over the in-memory repository, the callbacks it
completes a payment by are exact precisely where `int` loses nothing of the two values it reads
(`completes_exactly_iff`).
-/

set_option autoImplicit false

namespace MpesaMcp

open Library Python StkCallbackHandler

/-! ## The property -/

/-- The number a value denotes; a boolean is no number, a text denotes what `int` reads in it. -/
def denotes : PyValue → Option ℚ
  | .int i => some i
  | .float (.finite d) => some d.toRat
  | .str s => (intOfText s).map fun i => (i : ℚ)
  | _ => none

/-- The dictionary of a metadata item with this name. -/
def named? (name : String) : PyValue → Option PyDict
  | .dict item => if (lookup item "Name").asStr? = some name then some item else none
  | _ => none

/-- The last metadata item with this name. -/
def lastNamed (name : String) (items : List PyValue) : Option PyDict :=
  items.reverse.findSome? (named? name)

/-- The metadata items of a callback. -/
def metadataItems (callback : PyDict) : List PyValue :=
  match lookup callback "CallbackMetadata" with
  | .dict metadata =>
    match lookup metadata "Item" with
    | .list items => items
    | _ => []
  | _ => []

/-- The callback reports success, and the amount of this transaction. -/
def ExactSuccess (payload : PyDict) (t : PendingTransaction) : Prop :=
  ∃ callback, extractCallback payload = some callback ∧
    denotes (lookup callback "ResultCode") = some 0 ∧
    ∃ item, lastNamed "Amount" (metadataItems callback) = some item ∧
      denotes (lookup item "Value") = some (t.amount : ℚ)

/-- Every transaction that processing the payload turns into a completed one is paid exactly. -/
def CompletesExactly {π : Type} (env : Env) (container : AppContainer Transactions π)
    (payload : PyDict) (w : World Transactions π) : Prop :=
  let w' := (Prog.run (handle env container) (process env.toRuntime payload) w).2
  ∀ id t u, w.transactions.get id = some t → t.status ≠ .completed →
    w'.transactions.get id = some u → u.status = .completed → ExactSuccess payload t

/-! ## What `int` loses -/

/-- The value is no boolean and has no fraction. -/
def Lossless : PyValue → Prop
  | .bool _ => False
  | .float (.finite d) => d.IsIntegral
  | _ => True

/-- `int` loses nothing of the result code and of the amount, which the last item named so carries. -/
def LosslessCallback (payload : PyDict) : Prop :=
  ∃ callback, extractCallback payload = some callback ∧ Lossless (lookup callback "ResultCode") ∧
    ∃ item, lastNamed "Amount" (metadataItems callback) = some item ∧
      hasKey item "Value" = true ∧ Lossless (lookup item "Value")

/-- Where `int` succeeds, the value denotes its result exactly if it loses nothing. It loses the
fraction of a float, and takes a boolean for a number. -/
theorem denotes_toInt_iff {v : PyValue} {i : Int} (h : v.toInt = .ok i) :
    denotes v = some (i : ℚ) ↔ Lossless v := by
  cases v with
  | bool b => simp [denotes, Lossless]
  | int j =>
    cases h
    simp [denotes, Lossless]
  | float f =>
    cases f with
    | finite d =>
      cases h
      exact Option.some_inj.trans d.toRat_eq_trunc_iff
    | _ => cases h
  | str s =>
    simp only [PyValue.toInt] at h
    cases hs : intOfText s with
    | none => rw [hs] at h; cases h
    | some j =>
      rw [hs] at h
      cases h
      simp [denotes, hs, Lossless]
  | _ => cases h

/-! ## The last item wins -/

theorem collectItems_append (parsed : PyDict) (xs ys : List PyValue) :
    collectItems parsed (xs ++ ys) = collectItems (collectItems parsed xs) ys := by
  induction xs generalizing parsed with
  | nil => rfl
  | cons x xs ih =>
    cases x with
    | dict item =>
      simp only [List.cons_append, collectItems]
      split
      next => split <;> exact ih _
      next => exact ih _
    | _ => exact ih _

/-- An item with another name leaves what is stored under this one. -/
theorem lookup_collectItems_of_not_named {name : String} {x : PyValue} (h : named? name x = none)
    (parsed : PyDict) : lookup (collectItems parsed [x]) name = lookup parsed name := by
  cases x with
  | dict item =>
    simp only [collectItems]
    split
    next other hname =>
      have hne : ¬ name = other := by
        rintro rfl
        simp only [named?, hname, PyValue.asStr?, if_true, reduceCtorEq] at h
      split
      · rw [lookup_assign, if_neg hne]
      · rfl
    next => rfl
  | _ => rfl

/-- An item with this name and a value stores the value. -/
theorem lookup_collectItems_of_named {name : String} {x : PyValue} {item : PyDict}
    (h : named? name x = some item) (valued : hasKey item "Value" = true) (parsed : PyDict) :
    lookup (collectItems parsed [x]) name = lookup item "Value" := by
  cases x with
  | dict item' =>
    simp only [named?] at h
    split at h
    next hname =>
      cases h
      cases hlookup : lookup item "Name" with
      | str s =>
        rw [hlookup] at hname
        cases hname
        simp only [collectItems, hlookup, valued, if_true]
        rw [lookup_assign, if_pos rfl]
      | _ => rw [hlookup] at hname; cases hname
    next => cases h
  | _ => cases h

/-- The metadata holds the value of the last item with the name. -/
theorem lookup_collectItems {name : String} {items : List PyValue} {item : PyDict}
    (last : lastNamed name items = some item) (valued : hasKey item "Value" = true)
    (parsed : PyDict) : lookup (collectItems parsed items) name = lookup item "Value" := by
  induction items using List.reverseRecOn with
  | nil => cases last
  | append_singleton xs x ih =>
    rw [collectItems_append]
    simp only [lastNamed, List.reverse_append, List.reverse_singleton, List.singleton_append,
      List.findSome?_cons] at last
    cases hx : named? name x with
    | none =>
      rw [hx] at last
      rw [lookup_collectItems_of_not_named hx]
      exact ih last
    | some item' =>
      rw [hx] at last
      cases last
      exact lookup_collectItems_of_named hx valued _

theorem extractMetadata_eq (callback : PyDict) :
    extractMetadata callback = collectItems [] (metadataItems callback) := by
  unfold extractMetadata metadataItems
  cases lookup callback "CallbackMetadata" with
  | dict metadata =>
    simp only
    cases lookup metadata "Item" <;> rfl
  | _ => rfl

/-! ## Acceptance -/

/-- A number that `_get_int` returns is the `int` of the value it found. -/
theorem toInt_of_getInt {source : PyDict} {key : String} {i : Int}
    (h : getInt source key = .ok (some i)) : (lookup source key).toInt = .ok i := by
  unfold getInt at h
  generalize lookup source key = v at h
  split at h
  next => cases h
  next =>
    split at h
    next j hj =>
      cases h
      exact hj
    all_goals cases h

/-- An accepted success callback is exact precisely where `int` loses nothing of its result code and
its amount: what it made of them is what was compared with the transaction. -/
theorem exactSuccess_iff {py : Runtime} {payload : PyDict} {f : CallbackFields}
    {t : PendingTransaction} (read : readFields py payload = .ok (some f))
    (success : f.resultCode = 0) (accepts : f.Accepts py t) :
    ExactSuccess payload t ↔ LosslessCallback payload := by
  obtain ⟨callback, hcallback, -, hcode, -, hmetadata⟩ := readFrom_of_readFields read
  have hzero : (lookup callback "ResultCode").toInt = .ok 0 := by
    rw [← success]
    exact toInt_of_getInt hcode
  -- the amount `process` reads is the one of the transaction
  have hamount : getInt (extractMetadata callback) "Amount" = .ok (some t.amount) := by
    obtain ⟨amount, hread⟩ := accepts.finite
    have hsome := (accepts.complete success).1
    rw [CallbackFields.amount_of_getInt hread] at hsome
    obtain ⟨n, rfl⟩ := Option.isSome_iff_exists.mp hsome
    rw [← hmetadata, hread, accepts.amount n (CallbackFields.amount_of_getInt hread)]
  have hitem : ∀ item, lastNamed "Amount" (metadataItems callback) = some item →
      hasKey item "Value" = true → (lookup item "Value").toInt = .ok t.amount := by
    intro item hlast hvalued
    have hlookup := lookup_collectItems hlast hvalued []
    rw [← extractMetadata_eq] at hlookup
    rw [← hlookup]
    exact toInt_of_getInt hamount
  have hdenotes : denotes (lookup callback "ResultCode") = some 0 ↔
      Lossless (lookup callback "ResultCode") := by
    simpa using denotes_toInt_iff hzero
  constructor
  · rintro ⟨c, hc, hresult, item, hlast, hvalue⟩
    cases hcallback.symm.trans hc
    have hvalued : hasKey item "Value" = true := by
      by_contra hmissing
      rw [lookup_of_not_hasKey (Bool.not_eq_true _ ▸ hmissing)] at hvalue
      cases hvalue
    exact ⟨callback, hcallback, hdenotes.mp hresult, item, hlast, hvalued,
      (denotes_toInt_iff (hitem item hlast hvalued)).mp hvalue⟩
  · rintro ⟨c, hc, hresult, item, hlast, hvalued, hvalue⟩
    cases hcallback.symm.trans hc
    exact ⟨callback, hcallback, hdenotes.mpr hresult, item, hlast,
      (denotes_toInt_iff (hitem item hlast hvalued)).mpr hvalue⟩

/-! ## Completion -/

section Completion

variable {π : Type} (env : Env) (settings : Settings) (verifier : CallbackSourceVerifier)
  (provider : PaymentProvider π)

/-- An accepted success callback that `int` loses something of completes a payment inexactly. -/
theorem not_completesExactly {payload : PyDict} {w : World Transactions π} {f : CallbackFields}
    {t : PendingTransaction} (read : readFields env.toRuntime payload = .ok (some f))
    (success : f.resultCode = 0)
    (found : firstMatch f.checkoutRequestId w.transactions = some t)
    (accepts : f.Accepts env.toRuntime t) (lossy : ¬ LosslessCallback payload) :
    ¬ CompletesExactly env (.inMemory settings verifier provider) payload w := by
  intro hexact
  refine lossy ((exactSuccess_iff read success accepts).mp ?_)
  rcases memory_process env settings verifier provider payload w with
    ⟨-, -, refuses⟩ | ⟨g, u, read', found', -, -, put⟩
  · exact absurd accepts (refuses f t read found)
  · cases read.symm.trans read'
    cases found.symm.trans found'
    have hget : (w.transactions.put ((f.update env.toRuntime).apply t
        (targetStatus f.resultCode) (w.ambient.now env).1)).get t.transactionId = some _ :=
      Keyed.get_put_of_eq _ rfl
    refine hexact t.transactionId t _ (get_of_firstMatch found).1 ?_ (put ▸ hget)
      (targetStatus_eq_completed.mpr success)
    rw [accepts.pending]
    decide

/-- **A payment is completed only by an exactly matching success callback**, precisely where the
callback is lossless or is refused for another reason. -/
theorem completes_exactly_iff (payload : PyDict) (w : World Transactions π) :
    CompletesExactly env (.inMemory settings verifier provider) payload w ↔
      ∀ f t, readFields env.toRuntime payload = .ok (some f) → f.resultCode = 0 →
        firstMatch f.checkoutRequestId w.transactions = some t → f.Accepts env.toRuntime t →
        LosslessCallback payload := by
  constructor
  · intro hexact f t read success found accepts
    by_contra lossy
    exact not_completesExactly env settings verifier provider read success found accepts lossy hexact
  · intro hlossless id t u stored hopen stored' hcompleted
    rcases memory_process env settings verifier provider payload w with
      ⟨-, same, -⟩ | ⟨f, v, read, found, accepts, -, put⟩
    · rw [same, stored] at stored'
      cases stored'
      exact absurd hcompleted hopen
    · rw [put, Keyed.get_put] at stored'
      split at stored'
      next hid =>
        cases stored'
        have hget : w.transactions.get id = some v := hid ▸ (get_of_firstMatch found).1
        cases stored.symm.trans hget
        have success := targetStatus_eq_completed.mp hcompleted
        exact (exactSuccess_iff read success accepts).mpr (hlossless f t read success found accepts)
      next =>
        cases stored.symm.trans stored'
        exact absurd hcompleted hopen

end Completion

/-! ## A fraction of a shilling -/

/-- The float 10.5. -/
def tenAndAHalf : Double where
  neg := false
  significand := 21 * 2 ^ 48
  exponent := -49
  significand_lt := by decide
  exponent_ge := by decide
  exponent_le := by decide
  normal := Or.inl (by decide)

/-- A pending payment of 10 shillings. -/
def tenShillings : PendingTransaction where
  transactionId := "t1"
  phoneNumber := "254700000000"
  amount := 10
  accountReference := "order"
  description := "goods"
  checkoutRequestId := "ws_CO_1"
  merchantRequestId := "m1"
  createdAt := Datetime.epoch
  updatedAt := Datetime.epoch

/-- A success callback for 10.5 shillings. -/
def halfShillingCallback : PyDict :=
  [("Body", .dict [("stkCallback", .dict [
    ("CheckoutRequestID", .str "ws_CO_1"),
    ("ResultCode", .int 0),
    ("ResultDesc", .str "Processed."),
    ("CallbackMetadata", .dict [("Item", .list [
      .dict [("Name", .str "Amount"), ("Value", .float (.finite tenAndAHalf))],
      .dict [("Name", .str "MpesaReceiptNumber"), ("Value", .str "NLJ7RT61SV")],
      .dict [("Name", .str "PhoneNumber"), ("Value", .str "254700000000")]])])])])]

/-- The callback for 10.5 shillings completes the payment of 10. -/
theorem completed_by_half_shilling :
    ¬ CompletesExactly Env.still (.inMemory {} .development MockDarajaPaymentProvider)
      halfShillingCallback (start (Keyed.empty.put tenShillings) ()) := by
  refine not_completesExactly _ _ _ _ (f := ⟨"ws_CO_1", 0, "Processed.",
    [("Amount", .float (.finite tenAndAHalf)), ("MpesaReceiptNumber", .str "NLJ7RT61SV"),
      ("PhoneNumber", .str "254700000000")]⟩) (t := tenShillings) rfl rfl rfl ?_ ?_
  · refine ⟨rfl, ⟨some 10, rfl⟩, fun _ => ⟨rfl, rfl, rfl⟩, fun n h => ?_, fun phone h => ?_⟩
    · exact (Option.some.inj h).symm
    · cases h
      rfl
  · rintro ⟨callback, hcallback, -, item, hlast, -, hvalue⟩
    cases hcallback
    cases hlast
    exact absurd (show tenAndAHalf.IsIntegral from hvalue) (by decide)

end MpesaMcp
