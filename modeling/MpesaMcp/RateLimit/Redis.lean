import Mathlib.Algebra.Order.Floor.Defs
import Mathlib.Data.Rat.Floor
import MpesaMcp.Library.Prog
import MpesaMcp.RateLimit.Limiter

/-!
# The Redis rate limiter

`RedisRateLimiter` is a program over the three commands it sends. `RedisTable` is the server they reach:
counters, each with or without an expiry. A key past its expiry is not there; an expiry is set by
`EXPIRE` alone and kept by `INCR`.

A command can fail in two ways: it never reaches the server, or only its answer is lost.
-/

set_option autoImplicit false

namespace MpesaMcp

open Library

/-! ## The client -/

/-- `RedisClientProtocol`. -/
inductive RedisCommand
  | incr (name : String)
  | expire (name : String) (time : Int)
  | ttl (name : String)

abbrev RedisCommand.Answer : RedisCommand → Type
  | .incr _ => Int
  | .expire _ _ => Bool
  | .ttl _ => Int

namespace RedisRateLimiter

def unavailable : Exn := .infrastructureUnavailable "Rate limiter infrastructure is unavailable."

/-- The window starts with the first call it counts. -/
def startWindow (key : String) (windowSeconds count : Int) : Prog Exn RedisCommand.Answer Unit :=
  if count = 1 then (fun _ => ()) <$> Prog.send (.expire key windowSeconds) else pure ()

/-- The `try` of `allow`: the count after this call, and how long the key lives. -/
def countCall (key : String) (windowSeconds : Int) : Prog Exn RedisCommand.Answer (Int × Int) := do
  let count ← Prog.send (.incr key)
  startWindow key windowSeconds count
  let ttl ← Prog.send (.ttl key)
  pure (count, ttl)

/-- The decision on a count. -/
def decision (key : String) (limit windowSeconds count ttl : Int) : RateLimitDecision :=
  let resetAfterSeconds := if ttl < 0 then windowSeconds else ttl
  if limit < count then
    { allowed := false
      key := key
      limit := limit
      remaining := 0
      resetAfterSeconds := resetAfterSeconds }
  else
    { allowed := true
      key := key
      limit := limit
      remaining := max 0 (limit - count)
      resetAfterSeconds := resetAfterSeconds }

/-- Return whether a key is allowed for the configured limit window. -/
def allow (key : String) (limit windowSeconds : Int) :
    Prog Exn RedisCommand.Answer RateLimitDecision := do
  let counted ← (countCall key windowSeconds).translate fun _ => unavailable
  pure (decision key limit windowSeconds counted.1 counted.2)

end RedisRateLimiter

/-! ## The server -/

/-- A counter of the server. -/
structure RedisCounter where
  name : String
  value : Nat
  expiresAt : Option ℚ

abbrev RedisTable := Keyed RedisCounter.name

namespace RedisTable

/-- The counter a command finds: one past its expiry is not there. -/
def live (now : ℚ) (table : RedisTable) (name : String) : Option RedisCounter :=
  (table.get name).filter fun counter => counter.expiresAt.all fun expiresAt => now < expiresAt

/-- `INCR` starts a missing counter at one, without an expiry. -/
def incr (now : ℚ) (name : String) (table : RedisTable) : RedisCounter :=
  match live now table name with
  | some counter => { counter with value := counter.value + 1 }
  | none => { name := name, value := 1, expiresAt := none }

/-- What the server does with a command. -/
def execute (now : ℚ) (command : RedisCommand) (table : RedisTable) : command.Answer × RedisTable :=
  match command with
  | .incr name =>
    let counter := incr now name table
    ((counter.value : Int), table.put counter)
  | .expire name time =>
    match live now table name with
    | none => (false, table)
    | some counter =>
      -- a time that is not in the future deletes the key
      if time ≤ 0 then (true, table.filter fun other => other.name ≠ name)
      else (true, table.put { counter with expiresAt := some (now + time) })
  | .ttl name =>
    match live now table name with
    | none => (-2, table)
    | some counter =>
      match counter.expiresAt with
      | none => (-1, table)
      | some expiresAt => (⌊expiresAt - now + 1 / 2⌋, table)

end RedisTable

/-- What becomes of a command on its way. -/
inductive RedisDelivery
  | answered
  /-- The server executes it, and its answer does not arrive. -/
  | answerLost
  /-- It does not reach the server. -/
  | refused
deriving DecidableEq

/-- The server, at one time, over a connection. -/
def handleRedis (now : ℚ) (delivery : RedisCommand → RedisDelivery) :
    Handler Exn RedisCommand.Answer RedisTable :=
  fun command table =>
    match delivery command with
    | .answered =>
      (.ok (RedisTable.execute now command table).1, (RedisTable.execute now command table).2)
    | .answerLost => (.error (.other "Error while reading from socket"),
      (RedisTable.execute now command table).2)
    | .refused => (.error (.other "Error connecting to the server"), table)

end MpesaMcp
