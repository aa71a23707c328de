import Mathlib.Order.Monotone.Basic
import Mathlib.Order.Nat
import Mathlib.Data.Rat.Defs
import Mathlib.Algebra.Order.Ring.Rat
import MpesaMcp.Python.Datetime

/-!
# What the process runs in

`Env` is everything a run of the application takes from outside that is not an answer of a payment
provider or of an HTTP peer: the readings of the two clocks, the identifiers `uuid4` draws, and which
database statements fail. Readings are indexed by the number of the read, so that a run can advance
the clocks by any amount between any two reads. `Ambient` counts the reads made so far.

`Exn` lists the exceptions that cross a service boundary. `Runtime` holds the two library functions
whose definitions the application does not depend on.
-/

set_option autoImplicit false

namespace MpesaMcp

open Python

/-- The exceptions that leave a function of the application or of a collaborator. -/
inductive Exn
  /-- `TransactionStateTransitionError(from_status, to_status)`. -/
  | transactionStateTransition (fromStatus toStatus : String)
  /-- `TransactionIntegrityError(message)`. -/
  | transactionIntegrity (message : String)
  /-- `DuplicateTransactionIntegrityError(message)`. -/
  | duplicateTransactionIntegrity (message : String)
  /-- `InfrastructureUnavailableError(message)`. -/
  | infrastructureUnavailable (message : String)
  /-- `sqlalchemy.exc.IntegrityError`, with the text of the database. -/
  | integrityError (message : String)
  /-- Any other `sqlalchemy.exc.SQLAlchemyError`. -/
  | sqlAlchemyError (message : String)
  /-- `DarajaProviderError(message, error_category)`. -/
  | darajaProvider (message errorCategory : String)
  | valueError (message : String)
  | overflowError (message : String)
  /-- Any other exception of a collaborator, with its text. -/
  | other (message : String)
deriving DecidableEq, Repr

/-- `str(exc)`. -/
def Exn.message : Exn → String
  | .transactionStateTransition fromStatus toStatus =>
    "Invalid transaction state transition: " ++ fromStatus ++ " -> " ++ toStatus ++ "."
  | .transactionIntegrity message => message
  | .duplicateTransactionIntegrity message => message
  | .infrastructureUnavailable message => message
  | .integrityError message => message
  | .sqlAlchemyError message => message
  | .darajaProvider message _ => message
  | .valueError message => message
  | .overflowError message => message
  | .other message => message

/-- Library functions of the interpreter. -/
structure Runtime where
  /-- `hashlib.sha256(text.encode("utf-8")).hexdigest()`. -/
  sha256Hexdigest : String → String
  /-- `str.isprintable` of one character, which decides how `repr` quotes it. -/
  isPrintable : Char → Bool

/-- The surroundings of one run. -/
structure Env extends Runtime where
  /-- The n-th reading of `datetime.now(UTC)`. -/
  clock : Nat → Datetime
  clock_mono : Monotone clock
  /-- The n-th reading of `time.monotonic()`. -/
  monotonic : Nat → ℚ
  monotonic_mono : Monotone monotonic
  /-- The n-th identifier drawn by `str(uuid4())`. -/
  uuid4 : Nat → String
  uuid4_injective : Function.Injective uuid4
  /-- Whether the n-th database statement fails. -/
  databaseFails : Nat → Bool

/-- Surroundings in which both clocks stand still and no statement fails; `uuid4` counts in ones. -/
def Env.still : Env where
  sha256Hexdigest text := text
  isPrintable _ := true
  clock _ := Datetime.epoch
  clock_mono := monotone_const
  monotonic _ := 0
  monotonic_mono := monotone_const
  uuid4 n := String.ofList (List.replicate (n + 1) '1')
  uuid4_injective m n h := by
    have hlen := congrArg String.length h
    simpa using hlen
  databaseFails _ := false

/-- The surroundings at one reading of the monotonic clock. -/
def Env.atMonotonic (env : Env) (now : ℚ) : Env :=
  { env with monotonic := fun _ => now, monotonic_mono := monotone_const }

/-- The surroundings at one reading of the clock. -/
def Env.atClock (env : Env) (now : Datetime) : Env :=
  { env with clock := fun _ => now, clock_mono := monotone_const }

/-- How much of its surroundings a run has used. -/
structure Ambient where
  clockReads : Nat := 0
  monotonicReads : Nat := 0
  uuidDraws : Nat := 0
  statements : Nat := 0
deriving DecidableEq, Repr

/-- Readings are never given back. -/
structure Ambient.Forward (a b : Ambient) : Prop where
  clockReads : a.clockReads ≤ b.clockReads
  monotonicReads : a.monotonicReads ≤ b.monotonicReads
  uuidDraws : a.uuidDraws ≤ b.uuidDraws
  statements : a.statements ≤ b.statements

namespace Ambient

theorem Forward.refl (a : Ambient) : Forward a a :=
  ⟨Nat.le_refl _, Nat.le_refl _, Nat.le_refl _, Nat.le_refl _⟩

theorem Forward.trans {a b c : Ambient} (hab : Forward a b) (hbc : Forward b c) : Forward a c :=
  ⟨Nat.le_trans hab.1 hbc.1, Nat.le_trans hab.2 hbc.2, Nat.le_trans hab.3 hbc.3,
    Nat.le_trans hab.4 hbc.4⟩

/-- `datetime.now(UTC)`. -/
def now (env : Env) (a : Ambient) : Datetime × Ambient :=
  (env.clock a.clockReads, { a with clockReads := a.clockReads + 1 })

/-- `time.monotonic()`. -/
def monotonic (env : Env) (a : Ambient) : ℚ × Ambient :=
  (env.monotonic a.monotonicReads, { a with monotonicReads := a.monotonicReads + 1 })

/-- `str(uuid4())`. -/
def uuid4 (env : Env) (a : Ambient) : String × Ambient :=
  (env.uuid4 a.uuidDraws, { a with uuidDraws := a.uuidDraws + 1 })

/-- One database statement: whether it fails. -/
def statement (env : Env) (a : Ambient) : Bool × Ambient :=
  (env.databaseFails a.statements, { a with statements := a.statements + 1 })

variable (env : Env) (a : Ambient)

theorem forward_now : Forward a (a.now env).2 :=
  ⟨Nat.le_succ _, Nat.le_refl _, Nat.le_refl _, Nat.le_refl _⟩

theorem forward_monotonic : Forward a (a.monotonic env).2 :=
  ⟨Nat.le_refl _, Nat.le_succ _, Nat.le_refl _, Nat.le_refl _⟩

theorem forward_uuid4 : Forward a (a.uuid4 env).2 :=
  ⟨Nat.le_refl _, Nat.le_refl _, Nat.le_succ _, Nat.le_refl _⟩

theorem forward_statement : Forward a (a.statement env).2 :=
  ⟨Nat.le_refl _, Nat.le_refl _, Nat.le_refl _, Nat.le_succ _⟩

end Ambient

end MpesaMcp
