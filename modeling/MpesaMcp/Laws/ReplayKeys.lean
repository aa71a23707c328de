import Mathlib
import MpesaMcp.Laws.ReplayProtection

/-!
# Which callbacks share a replay key

A replay key is a digest of three texts, so two payloads share it exactly where the texts agree. The
handler reads the same three fields in its own way: it takes no callback from anywhere but
`Body.stkCallback`, tells a missing value from an empty one, and reads the result code as an integer.
`replay_key_iff` says where the two readings of two payloads agree.
-/

set_option autoImplicit false

namespace MpesaMcp

open Python StkCallbackHandler

variable {py : Runtime}

/-! ## The fingerprint -/

/-- Fingerprints are written apart. -/
theorem replayFingerprint_of_dumps {p q : PyDict}
    (h : dumps (replayFingerprint py p) = dumps (replayFingerprint py q)) :
    replayFingerprint py p = replayFingerprint py q :=
  dumps_values_injective ((replayFingerprint_keys py p).trans (replayFingerprint_keys py q).symm) h

/-- Two payloads share their replay key exactly where they have one fingerprint. -/
theorem buildCallbackReplayKey_eq_iff (injective : Function.Injective py.sha256Hexdigest)
    {p q : PyDict} :
    buildCallbackReplayKey py p = buildCallbackReplayKey py q ↔
      replayFingerprint py p = replayFingerprint py q := by
  refine ⟨fun h => replayFingerprint_of_dumps ?_, fun h => ?_⟩
  · exact injective ((String.append_right_inj _).mp h)
  · unfold buildCallbackReplayKey
    rw [h]

/-! ## The two readings of a field -/

/-- The key is built from the text that the handler reads, or from the empty text where it reads none. -/
theorem stringOrEmpty_eq (source : PyDict) (key : String) :
    stringOrEmpty py (lookup source key) = (getString py source key).getD "" := by
  unfold getString
  cases lookup source key <;> rfl

/-- The handler's reading of the fields of a replay key; nothing where it finds no callback. -/
structure CallbackReading where
  checkoutRequestId : Option String
  resultCode : Except Exn (Option Int)
  mpesaReceiptNumber : Option String
deriving DecidableEq

/-- What `process` extracts from a payload. -/
def handlerReading (py : Runtime) (payload : PyDict) : CallbackReading :=
  match extractCallback payload with
  | none => ⟨none, .ok none, none⟩
  | some callback => {
    checkoutRequestId := getString py callback "CheckoutRequestID"
    resultCode := getInt callback "ResultCode"
    mpesaReceiptNumber := getString py (extractMetadata callback) "MpesaReceiptNumber" }

/-- The decimal numeral of an integer, and the empty text for none. -/
def numeral (code : Option Int) : String := (code.map toString).getD ""

theorem toString_int_ne_empty (i : Int) : toString i ≠ "" := by
  rw [Int.toString_eq_repr, Int.repr_eq_if]
  split
  next => exact Nat.repr_ne_empty
  next =>
    intro h
    exact absurd (String.append_eq_empty_iff.mp h).1 (by decide)

theorem numeral_injective : Function.Injective numeral := by
  intro a b h
  unfold numeral at h
  cases a with
  | none =>
    cases b with
    | none => rfl
    | some j => exact absurd h.symm (toString_int_ne_empty j)
  | some i =>
    cases b with
    | none => exact absurd h (toString_int_ne_empty i)
    | some j =>
      rw [Option.map_some, Option.map_some, Option.getD_some, Option.getD_some,
        Int.toString_eq_repr, Int.toString_eq_repr] at h
      rw [Int.repr_injective h]

/-- The result code of a callback is written as the numeral of the integer the handler reads, or is
missing. -/
def PlainResultCode (py : Runtime) (callback : PyDict) : Prop :=
  ∃ code, getInt callback "ResultCode" = .ok code ∧
    stringOrEmpty py (lookup callback "ResultCode") = numeral code

/-- A result code that is a JSON integer is plain. -/
theorem PlainResultCode.of_int {callback : PyDict} {code : Int}
    (h : lookup callback "ResultCode" = .int code) : PlainResultCode py callback := by
  refine ⟨some code, ?_, ?_⟩
  · rw [getInt, h]
    rfl
  · rw [h]
    rfl

/-! ## The theorem -/

/-- **Which callbacks share a replay key**, where the digest is injective: those with the same three
texts. Of two callbacks that the handler finds, these are the texts it reads, a missing one counting as
empty; and where both result codes are plain, their texts agree exactly where the integers do. -/
theorem replay_key_iff (py : Runtime) (injective : Function.Injective py.sha256Hexdigest)
    (p q : PyDict) :
    (buildCallbackReplayKey py p = buildCallbackReplayKey py q ↔
      replayFingerprint py p = replayFingerprint py q) ∧
    ∀ callback callback', extractCallback p = some callback → extractCallback q = some callback' →
      let r := handlerReading py p
      let r' := handlerReading py q
      (buildCallbackReplayKey py p = buildCallbackReplayKey py q ↔
        r.checkoutRequestId.getD "" = r'.checkoutRequestId.getD "" ∧
        r.mpesaReceiptNumber.getD "" = r'.mpesaReceiptNumber.getD "" ∧
        stringOrEmpty py (lookup callback "ResultCode") =
          stringOrEmpty py (lookup callback' "ResultCode")) ∧
      (PlainResultCode py callback → PlainResultCode py callback' →
        (buildCallbackReplayKey py p = buildCallbackReplayKey py q ↔
          r.checkoutRequestId.getD "" = r'.checkoutRequestId.getD "" ∧
          r.mpesaReceiptNumber.getD "" = r'.mpesaReceiptNumber.getD "" ∧
          r.resultCode = r'.resultCode)) := by
  refine ⟨buildCallbackReplayKey_eq_iff injective, fun callback callback' hp hq => ?_⟩
  intro r r'
  have hr : r = ⟨getString py callback "CheckoutRequestID", getInt callback "ResultCode",
      getString py (extractMetadata callback) "MpesaReceiptNumber"⟩ := by
    simp only [r, handlerReading, hp]
  have hr' : r' = ⟨getString py callback' "CheckoutRequestID", getInt callback' "ResultCode",
      getString py (extractMetadata callback') "MpesaReceiptNumber"⟩ := by
    simp only [r', handlerReading, hq]
  have hkey : buildCallbackReplayKey py p = buildCallbackReplayKey py q ↔
      r.checkoutRequestId.getD "" = r'.checkoutRequestId.getD "" ∧
      r.mpesaReceiptNumber.getD "" = r'.mpesaReceiptNumber.getD "" ∧
      stringOrEmpty py (lookup callback "ResultCode") =
        stringOrEmpty py (lookup callback' "ResultCode") := by
    rw [buildCallbackReplayKey_eq_iff injective, hr, hr']
    simp only [replayFingerprint, extractReplayCallback, hp, hq, List.cons.injEq, Prod.mk.injEq,
      true_and, and_true, ← stringOrEmpty_eq]
  refine ⟨hkey, ?_⟩
  rintro ⟨code, hcode, htext⟩ ⟨code', hcode', htext'⟩
  have hcodes : stringOrEmpty py (lookup callback "ResultCode") =
      stringOrEmpty py (lookup callback' "ResultCode") ↔ r.resultCode = r'.resultCode := by
    rw [htext, htext', hr, hr', hcode, hcode', numeral_injective.eq_iff, Except.ok.injEq]
  rw [hkey, hcodes]

/-- A callback of a push with these further fields. -/
def pushCallback (fields : PyDict) : PyDict :=
  [("Body", .dict [("stkCallback", .dict ([("CheckoutRequestID", .str "ws_CO_1")] ++ fields))])]

/-- A receipt among the metadata of a callback. -/
def receiptMetadata (receipt : PyValue) : String × PyValue :=
  ("CallbackMetadata", .dict [("Item", .list [.dict [("Name", .str "MpesaReceiptNumber"),
    ("Value", receipt)]])])

/-- The handler reads the result codes `0` and `"00"` alike, and the keys differ; it tells an empty
receipt from a missing one, and the keys agree. -/
theorem replay_key_drifts :
    let key := buildCallbackReplayKey Env.still.toRuntime
    let reading := handlerReading Env.still.toRuntime
    Function.Injective Env.still.sha256Hexdigest ∧
    (reading (pushCallback [("ResultCode", .int 0)]) =
        reading (pushCallback [("ResultCode", .str "00")]) ∧
      key (pushCallback [("ResultCode", .int 0)]) ≠ key (pushCallback [("ResultCode", .str "00")])) ∧
    (reading (pushCallback [("ResultCode", .int 0)]) ≠
        reading (pushCallback [("ResultCode", .int 0), receiptMetadata (.str "")]) ∧
      key (pushCallback [("ResultCode", .int 0)]) =
        key (pushCallback [("ResultCode", .int 0), receiptMetadata (.str "")])) := by
  refine ⟨fun _ _ h => h, ⟨by decide, by decide +kernel⟩, by decide, by decide +kernel⟩

/-- A receipt of a paid push keeps its callback apart from one with another receipt. -/
theorem replay_key_iff_receipts :
    buildCallbackReplayKey Env.still.toRuntime
        (pushCallback [("ResultCode", .int 0), receiptMetadata (.str "RCP1")]) ≠
      buildCallbackReplayKey Env.still.toRuntime
        (pushCallback [("ResultCode", .int 0), receiptMetadata (.str "RCP2")]) := by
  intro hkey
  have hread := (((replay_key_iff Env.still.toRuntime (fun _ _ h => h) _ _).2 _ _ rfl rfl).2
    (.of_int rfl) (.of_int rfl)).mp hkey
  exact absurd hread.2.1 (by decide)

end MpesaMcp
