import MpesaMcp.Observability.Tracing
import MpesaMcp.Python.Isoformat
import MpesaMcp.Python.Json

/-!
# Application logging configuration

A log record is written as one JSON object, with a few of the attributes that a call adds to it. The
handler of a stream writes a line for each record.
-/

set_option autoImplicit false

namespace MpesaMcp

open Python

/-- A value that a call of the logger passes under one of the safe keys. -/
inductive LogValue
  | str (s : String)
  | int (i : Int)
deriving DecidableEq

/-- What a formatter reads of a log record. -/
structure LogRecord where
  created : Datetime
  levelname : String
  name : String
  /-- `record.getMessage()`. -/
  message : String
  /-- The attributes of `extra` that are not `None`, except for the correlation id. -/
  attributes : List (String × LogValue) := []
  /-- The attribute `correlation_id`, where the record has one. -/
  correlationId : Option (Option String) := none
  /-- `formatException(record.exc_info)`. -/
  exception : Option String := none

/-- `getattr(record, key, None)`. -/
def LogRecord.getattr (record : LogRecord) (key : String) : Option LogValue :=
  (record.attributes.find? fun item => decide (item.1 = key)).map Prod.snd

def safeExtraKeys : List String := [
  "amount",
  "approval_id",
  "correlation_id",
  "event_type",
  "limit",
  "remaining",
  "reset_after_seconds",
  "status",
  "tool_name",
  "transaction_id"]

/-- `SAFE_EXTRA_KEYS - {"correlation_id"}`, in the order in which the set is read. -/
def ReadsSafeKeys (keys : List String) : Prop :=
  keys.Perm (safeExtraKeys.filter fun key => decide (key ≠ "correlation_id"))

/-- `CorrelationIdFilter.filter`. -/
def CorrelationIdFilter.filter (active : Option String) (record : LogRecord) : LogRecord :=
  match record.correlationId with
  | none => { record with correlationId := some active }
  | some _ => record

namespace JsonLogFormatter

/-- `getattr(record, "correlation_id", None) or get_correlation_id()`. -/
def correlationId (active : Option String) (record : LogRecord) : Option String :=
  match record.correlationId.join with
  | none => active
  | some id => if id = "" then active else some id

/-- The items of the payload, in the order of their assignment; no key is assigned twice. -/
def payload (keys : List String) (active : Option String) (record : LogRecord) :
    List (String × LogValue) :=
  [("timestamp", .str (Datetime.isoformat record.created)), ("level", .str record.levelname),
    ("logger", .str record.name), ("message", .str record.message)] ++
    ((correlationId active record).map fun id => ("correlation_id", .str id)).toList ++
    (keys.filterMap fun key => (record.getattr key).map fun value => (key, value)) ++
    (record.exception.map fun text => ("exception", .str text)).toList

/-- A value as `json.dumps` writes it. -/
def dumpValue : LogValue → List Char
  | .str s => quoteJson s.toList
  | .int i => (toString i).toList

def dumpMember (item : String × LogValue) : List Char :=
  quoteJson item.1.toList ++ ':' :: dumpValue item.2

/-- `json.dumps(payload, default=str, separators=(",", ":"))`. -/
def dumpPayload : List (String × LogValue) → List Char
  | [] => ['\x7b', '\x7d']
  | item :: items =>
    '\x7b' :: dumpMember item ++ (items.flatMap fun item => ',' :: dumpMember item) ++ ['\x7d']

def format (keys : List String) (active : Option String) (record : LogRecord) : List Char :=
  dumpPayload (payload keys active record)

end JsonLogFormatter

/-- A record that is logged, and the correlation id that is active then. -/
structure LoggedRecord where
  record : LogRecord
  active : Option String

namespace LoggedRecord

/-- The record after the filter of the handler. -/
def filtered (logged : LoggedRecord) : LogRecord :=
  CorrelationIdFilter.filter logged.active logged.record

/-- The items of a record that is logged. -/
def payload (keys : List String) (logged : LoggedRecord) : List (String × LogValue) :=
  JsonLogFormatter.payload keys logged.active logged.filtered

/-- What `StreamHandler` writes of a record. -/
def emit (keys : List String) (logged : LoggedRecord) : List Char :=
  JsonLogFormatter.format keys logged.active logged.filtered ++ ['\n']

end LoggedRecord

end MpesaMcp
