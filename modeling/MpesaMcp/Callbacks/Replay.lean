import MpesaMcp.App.Messages
import MpesaMcp.Callbacks.Handlers
import MpesaMcp.Python.Json

/-!
# Callback replay protection

A callback is recognised by a digest of three of its fields. The in-memory store remembers until when
each key is taken; the times are readings of the monotonic clock.
-/

set_option autoImplicit false

namespace MpesaMcp

open Library Python

/-- `_seen`: until when each key is taken. -/
abbrev ReplayStore := Keyed (fun entry : String × ℚ => entry.1)

namespace InMemoryReplayProtection

/-- `_prune_expired`. -/
def pruneExpired (now : ℚ) (seen : ReplayStore) : ReplayStore :=
  seen.filter fun entry => decide (now < entry.2)

/-- Store a callback replay key if it has not already been seen. -/
def checkAndStore (env : Env) (key : String) (windowSeconds : Int) (a : Ambient)
    (seen : ReplayStore) : ReplayDecision × Ambient × ReplayStore :=
  let (now, a) := a.monotonic env
  let taken := match seen.get key with
    | some entry => decide (now < entry.2)
    | none => false
  if taken then
    ({ allowed := false, key := key, reason := "Duplicate callback replay detected." }, a, seen)
  else
    ({ allowed := true, key := key, reason := "Callback replay key accepted." }, a,
      pruneExpired now (seen.put (key, now + windowSeconds)))

end InMemoryReplayProtection

/-- `_extract_callback` of the replay module: it also takes a callback at the top of the payload,
and the payload itself where there is none. -/
def extractReplayCallback (payload : PyDict) : PyDict :=
  match StkCallbackHandler.extractCallback payload with
  | some callback => callback
  | none =>
    match lookup payload "stkCallback" with
    | .dict callback => callback
    | _ => payload

/-- `_string_or_empty`. -/
def stringOrEmpty (py : Runtime) : PyValue → String
  | .none => ""
  | value => value.toStr py.isPrintable

/-- The fields a replay key is built from, in the order of their names. -/
def replayFingerprint (py : Runtime) (payload : PyDict) : List (String × String) :=
  let callback := extractReplayCallback payload
  let metadata := StkCallbackHandler.extractMetadata callback
  [("CheckoutRequestID", stringOrEmpty py (lookup callback "CheckoutRequestID")),
    ("MpesaReceiptNumber", stringOrEmpty py (lookup metadata "MpesaReceiptNumber")),
    ("ResultCode", stringOrEmpty py (lookup callback "ResultCode"))]

/-- Build a deterministic replay key from stable M-Pesa callback identifiers. -/
def buildCallbackReplayKey (py : Runtime) (payload : PyDict) : String :=
  "callback_replay:" ++ py.sha256Hexdigest (dumps (replayFingerprint py payload))

end MpesaMcp
