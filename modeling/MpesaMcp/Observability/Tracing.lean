import MpesaMcp.App.Environment
import MpesaMcp.Python.Text

/-!
# Correlation ID tracing

A block runs under one correlation id: the one that is active already where none is asked for, else the
one that is asked for without the blanks around it, else a new one.
-/

set_option autoImplicit false

namespace MpesaMcp

open Python

/-- `_normalize_correlation_id`. -/
def normalizeCorrelationId (env : Env) (correlationId : Option String) (a : Ambient) :
    String × Ambient :=
  match correlationId with
  | none => a.uuid4 env
  | some correlationId =>
    if stripText correlationId = "" then a.uuid4 env else (stripText correlationId, a)

/-- The id that is active in a block of `correlation_context(correlation_id)`. -/
def correlationContext (env : Env) (active correlationId : Option String) (a : Ambient) :
    String × Ambient :=
  match active, correlationId with
  | some active, none => (active, a)
  | _, _ => normalizeCorrelationId env correlationId a

end MpesaMcp
