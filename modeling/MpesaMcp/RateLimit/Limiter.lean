import MpesaMcp.App.Environment
import MpesaMcp.Library.Keyed

/-!
# Swappable rate limiter implementations

The in-memory limiter keeps one fixed window a key, on readings of the monotonic clock. A denied call
stores nothing, so an ended window stays in the table until a call of its key is allowed again.
-/

set_option autoImplicit false

namespace MpesaMcp

open Library

/-- Decision returned by a rate limiter. -/
structure RateLimitDecision where
  allowed : Bool
  key : String
  limit : Int
  remaining : Int
  resetAfterSeconds : Int
deriving DecidableEq

/-- A rate limiter with states `ρ`: whether a key is allowed for the configured limit window. -/
structure RateLimiter (ρ : Type) where
  allow : Env → (key : String) → (limit windowSeconds : Int) → Ambient × ρ →
    Except Exn RateLimitDecision × (Ambient × ρ)
  forward : ∀ (env : Env) key limit windowSeconds (a : Ambient) state,
    a.Forward (allow env key limit windowSeconds (a, state)).2.1

/-- An entry of `_windows`. -/
structure RateWindow where
  key : String
  start : ℚ
  count : Nat

/-- `_windows`. -/
abbrev RateWindows := Keyed RateWindow.key

/-- `int(x)` of a number that is not an integer: towards zero. -/
def truncate (x : ℚ) : Int := x.num.tdiv x.den

namespace InMemoryRateLimiter

/-- `allow` at one reading of the clock. -/
def allowAt (now : ℚ) (key : String) (limit windowSeconds : Int) (windows : RateWindows) :
    RateLimitDecision × RateWindows :=
  let stored := (windows.get key).getD { key := key, start := now, count := 0 }
  let elapsed := now - stored.start
  let window := if windowSeconds ≤ elapsed then { stored with start := now, count := 0 } else stored
  if limit ≤ window.count then
    -- `elapsed` is the one of the stored window, also where that window has just ended
    ({ allowed := false
       key := key
       limit := limit
       remaining := 0
       resetAfterSeconds := max 0 (truncate (windowSeconds - elapsed)) }, windows)
  else
    let window := { window with count := window.count + 1 }
    ({ allowed := true
       key := key
       limit := limit
       remaining := max 0 (limit - window.count)
       resetAfterSeconds := max 0 (truncate (windowSeconds - (now - window.start))) },
      windows.put window)

end InMemoryRateLimiter

/-- Simple fixed-window in-memory rate limiter. -/
def InMemoryRateLimiter : RateLimiter RateWindows where
  allow env key limit windowSeconds := fun (a, windows) =>
    let (now, a) := a.monotonic env
    let r := InMemoryRateLimiter.allowAt now key limit windowSeconds windows
    (.ok r.1, a, r.2)
  forward env _ _ _ a _ := a.forward_monotonic env

end MpesaMcp
